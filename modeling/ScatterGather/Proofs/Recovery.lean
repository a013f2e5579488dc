import ScatterGather.Proofs.Likeness
import ScatterGather.Proofs.PumpTending

/-!
# ScatterGather.Proofs.Recovery — operations that do not care about an earlier timeout

A stream that lets its channel go on after a timeout is *enduring*. All that the timeout leaves
behind is a pause and the state `timeout` in place of `busy`, and nearly every operation looks at
the state. `Stream.Like` compares a stream with one that had such a timeout: the second is *shaded*
as long as its state still shows it. Each operation does the same to both and leaves them like
(`Like.append` and its fellows); one that sets the state takes the shade away. A pump keeps books
beside its stream and looks at nothing but its results, so like pumps stay like as well.

A further timeout at the second stream is a pause and nothing else (`Like.late`).
-/

namespace ScatterGather

/-! ## Code that does not poll -/

/-- Code that touches descriptors only does not poll. -/
theorem plain_of_tabular {α : Type} {Q : α → Prop} {x : DriverScript α}
    (h : x.Uses Access.Tabular Q) : x.Uses Access.Plain fun _ => True :=
  h.mono (fun _ ha => ha.plain) fun _ _ => trivial

namespace Stream

theorem plain_residue (s : Stream) : s.residue.Uses Access.Plain fun _ => True := by
  unfold residue
  split
  · exact .done trivial
  · refine (s.uses_executingOffset trivial trivial).bind fun offset _ => ?_
    split
    · exact .done trivial
    · refine .bind (uses_perform (.fetch _) trivial) fun current _ => ?_
      refine .bind (uses_perform .nextPointer trivial) fun before _ => ?_
      split
      · exact .done trivial
      · refine .bind (uses_perform .transferCount trivial) fun count _ => ?_
        refine .bind (uses_perform .nextPointer trivial) fun after _ => ?_
        split <;> exact .done trivial

/-- A pause of the channel is nothing else. -/
theorem idle_drainAndResume (s : Stream) : s.drainAndResume.Uses Access.Idle fun _ => True :=
  s.uses_drainAndResume trivial trivial ⟨_, rfl⟩ trivial

theorem late_drainAndResume (s : Stream) :
    s.drainAndResume.Uses (fun a => a.Idle ∨ a.Late) fun _ => True :=
  s.idle_drainAndResume.mono (fun _ => .inl) fun _ h => h

/-! ## Streams that differ in a timeout -/

/-- A stream that lets its channel go on after a timeout. While it holds the channel it is busy, or
had a timeout. -/
structure Enduring (s : Stream) : Prop where
  policy : s.config.timeoutPolicy = .restart
  held : s.bound = true → s.state = .busy ∨ s.state = .timeout

/-- Two enduring streams differ in their states, if at all, and only as long as the second is
*shaded*: the first is then busy, and the second had a timeout. -/
structure Like (shaded : Bool) (s s' : Stream) : Prop where
  enduring : s.Enduring
  rest : s' = { s with state := s'.state }
  state : s'.state = s.state ∨
    shaded = true ∧ s.bound = true ∧ s.state = .busy ∧ s'.state = .timeout

variable {s s' : Stream} {shaded : Bool}

theorem Enduring.like (h : s.Enduring) (shaded : Bool) : s.Like shaded s :=
  ⟨h, rfl, .inl rfl⟩

theorem Like.mono {shaded' : Bool} (h : s.Like shaded s') (hs : shaded = true → shaded' = true) :
    s.Like shaded' s' :=
  ⟨h.enduring, h.rest, h.state.imp_right fun ht => ⟨hs ht.1, ht.2⟩⟩

/-- Streams of which none is shaded are the same. -/
theorem Like.eq (h : s.Like false s') : s' = s := by
  have hstate : s'.state = s.state := h.state.resolve_right fun ht => nomatch ht.1
  rw [h.rest, hstate]

/-- Only a stream that holds its channel can be shaded. -/
theorem Like.eq_of_unbound (h : s.Like shaded s') (hb : s.bound = false) : s' = s := by
  have hstate : s'.state = s.state := h.state.resolve_right fun hs => by
    rw [hb] at hs
    exact Bool.false_ne_true hs.2.1
  rw [h.rest, hstate]

/-- A like stream is the same stream in a state of its own. -/
theorem Like.cases (h : s.Like shaded s') : ∃ t, s' = { s with state := t } ∧
    (t = s.state ∨ shaded = true ∧ s.bound = true ∧ s.state = .busy ∧ t = .timeout) :=
  ⟨_, h.rest, h.state⟩

/-- A shaded stream endures timeouts like the other one. -/
theorem Like.enduring_right (h : s.Like shaded s') : s'.Enduring := by
  have hend := h.enduring
  obtain ⟨t, rfl, ht⟩ := h.cases
  refine ⟨hend.policy, fun hb => ?_⟩
  rcases ht with rfl | ⟨-, -, -, rfl⟩
  · exact hend.held hb
  · exact .inr rfl

theorem Like.discardFinished (h : s.Like shaded s') :
    s.discardFinished.Like shaded s'.discardFinished := by
  by_cases hb : s.bound = true
  · have hb' : s'.bound = true := by rw [h.rest]; exact hb
    unfold Stream.discardFinished
    rw [if_neg (by simp [hb]), if_neg (by simp [hb'])]
    exact h
  · have hb := Bool.eq_false_iff.mpr hb
    rw [h.eq_of_unbound hb]
    refine Enduring.like ?_ shaded
    unfold Stream.discardFinished
    split
    · exact ⟨h.enduring.policy, h.enduring.held⟩
    · exact h.enduring

/-! ### Operations on like streams -/

theorem Like.append (h : s.Like shaded s') (destination source size : Nat) :
    Alike (Paired (Like shaded)) (s.append destination source size)
      (s'.append destination source size) := by
  have hcheck : s'.checkBlock destination source size = s.checkBlock destination source size := by
    rw [h.rest]
    rfl
  unfold Stream.append
  rw [hcheck]
  cases s.checkBlock destination source size with
  | error e => exact .done ⟨rfl, h⟩
  | ok elements =>
    have hd := h.discardFinished
    generalize s.discardFinished = d at hd
    generalize s'.discardFinished = d' at hd
    have hend := hd.enduring
    obtain ⟨t, rfl, ht⟩ := hd.cases
    refine alike_bind_self (plain_of_tabular (tabular_push ..)) fun pushed => ?_
    cases pushed with
    | none => exact .done ⟨rfl, hend, rfl, ht⟩
    | some pool =>
      refine alike_bind_self (d.uses_linkedTooLate trivial trivial) fun late => ?_
      refine alike_bind_self (.when _ (plain_of_tabular (tabular_setInterrupt ..))) fun _ => ?_
      refine .done ⟨rfl, ?_⟩
      by_cases hb : d.bound = true
      · refine ⟨⟨hend.policy, fun _ => ?_⟩, rfl, ?_⟩
        · show (if d.bound then d.state else .ready) = _ ∨ (if d.bound then d.state else .ready) = _
          rw [if_pos hb]
          exact hend.held hb
        · show (if d.bound then t else .ready) = (if d.bound then d.state else .ready) ∨
            _ ∧ _ ∧ (if d.bound then d.state else .ready) = _ ∧ (if d.bound then t else .ready) = _
          rw [if_pos hb, if_pos hb]
          exact ht
      · refine ⟨⟨hend.policy, fun hb' => absurd hb' hb⟩, rfl, .inl ?_⟩
        show (if d.bound then t else .ready) = (if d.bound then d.state else .ready)
        rw [if_neg hb, if_neg hb]

theorem Like.enable (h : s.Like shaded s') :
    Alike (Paired (Like shaded)) s.enable s'.enable := by
  have hend := h.enduring
  obtain ⟨t, rfl, ht⟩ := h.cases
  unfold Stream.enable
  show Alike _ (if (s.bound || s.pool.isEmpty) = true then _ else _)
    (if (s.bound || s.pool.isEmpty) = true then _ else _)
  split
  · exact .done ⟨rfl, h⟩
  · next hfree =>
    refine alike_bind_self (uses_perform (.bind ..) trivial) fun granted => ?_
    cases granted with
    | error e =>
      rw [Bool.or_eq_true, not_or] at hfree
      have hb := Bool.eq_false_iff.mpr hfree.1
      refine .done ⟨rfl, ⟨hend.policy, fun hb' => ?_⟩, rfl, .inl rfl⟩
      exact absurd (hb.symm.trans hb') Bool.false_ne_true
    | ok =>
      refine alike_bind_self (plain_of_tabular (tabular_relink ..)) fun _ => ?_
      refine alike_bind_self (plain_of_tabular (tabular_applyInterrupts _)) fun _ => ?_
      refine alike_bind_self (uses_perform (.log _) trivial) fun _ => ?_
      refine alike_bind_self (uses_perform (.start ..) trivial) fun _ => ?_
      exact .done ⟨rfl, ⟨hend.policy, fun _ => .inl rfl⟩, rfl, .inl rfl⟩

/-- Giving back the channel does not look at the state. -/
theorem alike_releaseChannel (s : Stream) (t : StreamState) :
    Alike (fun r r' => r = { s with bound := false, stalled := none } ∧ r' = { r with state := t })
      s.releaseChannel (releaseChannel { s with state := t }) := by
  refine alike_bind_self (uses_perform .halt trivial) fun _ => ?_
  refine alike_bind_self (uses_perform (.release ..) trivial) fun _ => ?_
  exact .done ⟨rfl, rfl⟩

/-- A stream that has given back its channel is as good as one that had a timeout before. -/
theorem Like.disable (h : s.Like shaded s') : Alike (Like false) s.disable s'.disable := by
  by_cases hb : s.bound = true
  · have hend := h.enduring
    have hend' := h.enduring_right
    obtain ⟨t, rfl, ht⟩ := h.cases
    have hover : t = .busy ∨ t = .timeout := hend'.held hb
    unfold Stream.disable
    rw [if_neg (by simp [hb]), if_neg (by simp [hb])]
    refine (s.alike_releaseChannel t).bind ?_
    rintro _ _ ⟨rfl, rfl⟩
    refine alike_bind_self (uses_perform (.log _) trivial) fun _ => ?_
    refine .done ⟨⟨hend.policy, fun hb' => nomatch hb'⟩, rfl, .inl ?_⟩
    show (if t = .busy ∨ t = .timeout then StreamState.done else t) =
      if s.state = .busy ∨ s.state = .timeout then .done else s.state
    rw [if_pos hover, if_pos (hend.held hb)]
  · have hb := Bool.eq_false_iff.mpr hb
    rw [h.eq_of_unbound hb]
    unfold Stream.disable
    rw [if_pos (by simp [hb])]
    exact .done (h.enduring.like false)

theorem Like.clear (h : s.Like shaded s') : Alike (Like false) s.clear s'.clear := by
  have hend := h.enduring
  obtain ⟨t, rfl, ht⟩ := h.cases
  unfold Stream.clear releaseIfBound
  show Alike _ ((if s.bound = true then _ else _) >>= _) ((if s.bound = true then _ else _) >>= _)
  split
  · refine (s.alike_releaseChannel t).bind ?_
    rintro _ _ ⟨rfl, rfl⟩
    exact .done ⟨⟨hend.policy, fun hb' => nomatch hb'⟩, rfl, .inl rfl⟩
  · next hb => exact .done ⟨⟨hend.policy, fun hb' => absurd hb' hb⟩, rfl, .inl rfl⟩

theorem Like.configure (h : s.Like shaded s') (settings : TransferSettings) :
    Paired (Like shaded) (s.configure settings) (s'.configure settings) := by
  have hend := h.enduring
  obtain ⟨t, rfl, ht⟩ := h.cases
  unfold Stream.configure
  show Paired _ (if s.bound = true then _ else _) (if s.bound = true then _ else _)
  split
  · exact ⟨rfl, h⟩
  · split
    · exact ⟨rfl, h⟩
    · exact ⟨rfl, ⟨hend.policy, hend.held⟩, rfl, ht⟩

theorem Like.setCallback (h : s.Like shaded s') (callback : Option Callback) :
    Alike (Like shaded) (s.setCallback callback) (s'.setCallback callback) := by
  have hend := h.enduring
  obtain ⟨t, rfl, ht⟩ := h.cases
  refine alike_bind_self (.when _ (plain_of_tabular (tabular_applyInterrupts _))) fun _ => ?_
  exact .done ⟨⟨hend.policy, hend.held⟩, rfl, ht⟩

theorem Like.queued (h : s.Like shaded s') : Alike Eq s.queued s'.queued := by
  rw [h.rest]
  exact alike_self (s.uses_queued trivial trivial)

theorem Like.residue (h : s.Like shaded s') : Alike Eq s.residue s'.residue := by
  rw [h.rest]
  exact alike_self s.plain_residue

/-! ### Events -/

/-- Retiring does not look at the state. -/
theorem alike_retirePassed (s : Stream) (t : StreamState) :
    Alike (fun r r' => (r.config = s.config ∧ r.bound = s.bound) ∧ r' = { r with state := t })
      s.retirePassed (retirePassed { s with state := t }) := by
  unfold retirePassed
  show Alike _ (if s.isCircular = true then _ else _) (if s.isCircular = true then _ else _)
  split
  · exact .done ⟨⟨rfl, rfl⟩, rfl⟩
  · exact alike_bind_self (s.uses_executingOffset trivial trivial) fun _ => .done ⟨⟨rfl, rfl⟩, rfl⟩

/-- After an event a stream that held its channel is the same, whether it had a timeout before or
not. -/
theorem Enduring.alike_react (h : s.Enduring) (t : StreamState)
    (event : TransferEvent) :
    Alike (fun r r' => r.Enduring ∧ r' = r) (s.react event)
      (react { s with state := t } event) := by
  cases event with
  | progress =>
    refine (s.alike_retirePassed t).bind ?_
    rintro r _ ⟨⟨hconfig, hbound⟩, rfl⟩
    exact .done ⟨⟨hconfig ▸ h.policy, fun _ => .inl rfl⟩, rfl⟩
  | complete =>
    refine (s.alike_retirePassed t).bind ?_
    rintro r _ ⟨⟨hconfig, hbound⟩, rfl⟩
    show Alike _ (if (!r.isCircular && !r.pool.isEmpty) = true then _ else _)
      (if (!r.isCircular && !r.pool.isEmpty) = true then _ else _)
    split
    · refine alike_bind_self (uses_perform (.log _) trivial) fun _ => ?_
      refine alike_bind_self (uses_perform (.start ..) trivial) fun _ => ?_
      exact .done ⟨⟨hconfig ▸ h.policy, fun _ => .inl rfl⟩, rfl⟩
    · refine (r.alike_releaseChannel t).bind ?_
      rintro _ _ ⟨rfl, rfl⟩
      exact .done ⟨⟨hconfig ▸ h.policy, fun hb' => nomatch hb'⟩, rfl⟩
  | busError =>
    refine alike_bind_self (uses_perform (.log _) trivial) fun _ => ?_
    refine (s.alike_releaseChannel t).bind ?_
    rintro _ _ ⟨rfl, rfl⟩
    exact .done ⟨⟨h.policy, fun hb' => nomatch hb'⟩, rfl⟩
  | timeout =>
    -- each side drains as long as it takes
    refine alike_bind_self (uses_perform (.log _) trivial) fun _ => ?_
    simp only [h.policy]
    refine alike_bind_left s.idle_drainAndResume fun _ => ?_
    refine alike_bind_right s.late_drainAndResume fun _ => ?_
    exact .done ⟨⟨h.policy, fun _ => .inr rfl⟩, rfl⟩

theorem Like.onInterrupt (h : s.Like shaded s') (event : TransferEvent) :
    Alike (Paired (Like false)) (s.onInterrupt event) (s'.onInterrupt event) := by
  by_cases hb : s.bound = true
  · have hend := h.enduring
    obtain ⟨t, rfl, ht⟩ := h.cases
    unfold Stream.onInterrupt
    rw [if_neg (by simp [hb]), if_neg (by simp [hb])]
    refine (hend.alike_react t event).bind ?_
    rintro _ r ⟨hr, rfl⟩
    exact alike_bind_self (r.uses_notify fun _ => trivial) fun _ => .done ⟨rfl, hr.like false⟩
  · have hb := Bool.eq_false_iff.mpr hb
    rw [h.eq_of_unbound hb]
    unfold Stream.onInterrupt
    rw [if_pos (by simp [hb])]
    exact .done ⟨rfl, h.enduring.like false⟩

/-- What a timeout does to a stream that endures it: nothing but a pause. -/
theorem Enduring.late_onInterrupt (h : s.Enduring) :
    (s.onInterrupt .timeout).Uses (fun a => a.Idle ∨ a.Late) fun r =>
      r = if s.bound then (some .timeout, { s with state := .timeout }) else (none, s) := by
  unfold Stream.onInterrupt
  by_cases hb : s.bound = true
  · rw [if_pos hb, if_neg (by simp [hb])]
    have hreact : (s.react .timeout).Uses (fun a => a.Idle ∨ a.Late) fun r =>
        r = { s with state := .timeout } := by
      refine .bind (uses_perform (.log _) (.inr ⟨_, rfl⟩)) fun _ _ => ?_
      rw [h.policy]
      refine s.late_drainAndResume.bind fun _ _ => ?_
      exact .done rfl
    refine hreact.bind ?_
    rintro _ rfl
    exact (uses_notify _ fun _ => .inr ⟨_, rfl⟩).bind fun _ _ => .done rfl
  · rw [if_neg hb, if_pos (by simp [hb])]
    exact .done rfl

/-- The second of two like streams is shaded by a timeout, if it holds its channel. -/
theorem Like.late (h : s.Like shaded s') :
    (s'.onInterrupt .timeout).Uses (fun a => a.Idle ∨ a.Late) fun r =>
      r.1 = (if s.bound then some .timeout else none) ∧ r.2.bound = s.bound ∧ s.Like true r.2 := by
  have hend := h.enduring
  have hend' := h.enduring_right
  obtain ⟨t, rfl, ht⟩ := h.cases
  refine hend'.late_onInterrupt.mono (fun _ ha => ha) ?_
  intro r hr
  by_cases hb : s.bound = true
  · rw [if_pos (show Stream.bound { s with state := t } = true from hb)] at hr
    rw [if_pos hb, hr]
    refine ⟨rfl, rfl, hend, rfl, ?_⟩
    rcases hend.held hb with hbusy | hlate
    · exact .inr ⟨rfl, hb, hbusy, rfl⟩
    · exact .inl hlate.symm
  · rw [if_neg (show ¬Stream.bound { s with state := t } = true from hb)] at hr
    rw [if_neg hb, hr]
    exact ⟨rfl, rfl, h.mono fun _ => rfl⟩

end Stream

/-! ## Pumps -/

namespace TransmitPump

/-- Two pumps differ in the states of their streams, if at all. -/
structure Like (shaded : Bool) (p p' : TransmitPump) : Prop where
  stream : p.stream.Like shaded p'.stream
  rest : p' = { p with stream := p'.stream }

variable {p p' : TransmitPump} {shaded : Bool}

theorem Like.cases (h : p.Like shaded p') :
    ∃ stream, p' = { p with stream } ∧ p.stream.Like shaded stream :=
  ⟨_, h.rest, h.stream⟩

theorem Like.startRun (h : p.Like shaded p') :
    Alike (Paired (Like shaded)) p.startRun p'.startRun := by
  obtain ⟨stream, rfl, hs⟩ := h.cases
  refine (hs.append _ _ _).next fun appended s s' hs => ?_
  cases appended with
  | error e => exact .done ⟨rfl, hs, rfl⟩
  | ok =>
    refine hs.enable.next fun enabled s s' hs => ?_
    cases enabled with
    | error e => exact .done ⟨rfl, hs, rfl⟩
    | ok => exact .done ⟨rfl, hs, rfl⟩

theorem Like.kick (h : p.Like shaded p') : Alike (Like shaded) p.kick p'.kick := by
  refine h.startRun.next fun started p p' h => ?_
  obtain ⟨stream, rfl, hs⟩ := h.cases
  cases started with
  | ok => exact .done ⟨hs, rfl⟩
  | error e =>
    have hnumber : stream.channel.number = p.stream.channel.number := by rw [hs.rest]
    show Alike _ (perform (.log (.notStarted p.stream.channel.number e)) >>= _)
      (perform (.log (.notStarted stream.channel.number e)) >>= _)
    rw [hnumber]
    exact alike_bind_self (uses_perform (.log _) trivial) fun _ => .done ⟨hs, rfl⟩

theorem Like.write (h : p.Like shaded p') (data : List UInt8) :
    Alike (Paired (Like shaded)) (p.write data) (p'.write data) := by
  obtain ⟨stream, rfl, hs⟩ := h.cases
  refine alike_bind_self (p.ring.uses_fill _ (fun _ _ => uses_perform (.save ..) trivial) data) ?_
  rintro ⟨count, ring⟩
  have hring : Like shaded { p with ring } { p with ring, stream } := ⟨hs, rfl⟩
  show Alike _ (if (p.isIdle && !ring.isEmpty) = true then _ else _)
    (if (p.isIdle && !ring.isEmpty) = true then _ else _)
  split
  · exact hring.kick.bind fun _ _ hk => .done ⟨rfl, hk⟩
  · exact .done ⟨rfl, hring⟩

theorem Like.onInterrupt (h : p.Like shaded p') (event : TransferEvent) :
    Alike (Paired (Like false)) (p.onInterrupt event) (p'.onInterrupt event) := by
  obtain ⟨stream, rfl, hs⟩ := h.cases
  refine (hs.onInterrupt event).next fun result s s' hs => ?_
  obtain rfl := hs.eq
  -- what the pump does next it does with the same stream
  cases result with
  | none => exact .done ⟨rfl, hs, rfl⟩
  | some status =>
    show Alike _ (if s'.bound = true then _ else _) (if s'.bound = true then _ else _)
    split
    · exact .done ⟨rfl, hs, rfl⟩
    · generalize (if status = .error then p.ring else p.ring.abandon p.inFlight) = ring
      have hp : Like false { p with stream := s', ring, inFlight := 0 }
          { p with stream := s', ring, inFlight := 0 } := ⟨hs, rfl⟩
      show Alike _ (if ring.isEmpty = true then _ else _) (if ring.isEmpty = true then _ else _)
      split
      · exact alike_bind_self (uses_notify _ fun _ => trivial) fun _ => .done ⟨rfl, hp⟩
      · exact hp.kick.bind fun _ _ hk => .done ⟨rfl, hk⟩

/-- A timeout of the channel is nothing to the pump. -/
theorem Like.late (h : p.Like shaded p') :
    (p'.onInterrupt .timeout).Uses (fun a => a.Idle ∨ a.Late) fun r =>
      r.1 = (if p.stream.bound then some .timeout else none) ∧ p.Like true r.2 := by
  obtain ⟨stream, rfl, hs⟩ := h.cases
  refine hs.late.bind ?_
  rintro ⟨result, s⟩ ⟨hresult, hbound, hs⟩
  by_cases hb : p.stream.bound = true
  · rw [if_pos hb] at hresult ⊢
    obtain rfl : result = some .timeout := hresult
    show Script.Uses _ _ (if s.bound = true then _ else _)
    rw [if_pos (show s.bound = true from hbound.trans hb)]
    exact .done ⟨rfl, hs, rfl⟩
  · rw [if_neg hb] at hresult ⊢
    obtain rfl : result = none := hresult
    exact .done ⟨rfl, hs, rfl⟩

end TransmitPump

namespace ReceivePump

/-- Two pumps differ in the states of their streams, if at all. -/
structure Like (shaded : Bool) (p p' : ReceivePump) : Prop where
  stream : p.stream.Like shaded p'.stream
  rest : p' = { p with stream := p'.stream }

variable {p p' : ReceivePump} {shaded : Bool}

theorem Like.cases (h : p.Like shaded p') :
    ∃ stream, p' = { p with stream } ∧ p.stream.Like shaded stream :=
  ⟨_, h.rest, h.stream⟩

theorem Like.start (h : p.Like shaded p') :
    Alike (Paired (Like false)) p.start p'.start := by
  obtain ⟨stream, rfl, hs⟩ := h.cases
  refine hs.clear.bind fun s s' hs => ?_
  refine (hs.append _ _ _).next fun first s s' hs => ?_
  cases first with
  | error e => exact .done ⟨rfl, hs, rfl⟩
  | ok =>
    refine (hs.append _ _ _).next fun second s s' hs => ?_
    cases second with
    | error e => exact .done ⟨rfl, hs, rfl⟩
    | ok =>
      refine hs.enable.next fun enabled s s' hs => ?_
      exact .done ⟨rfl, hs, rfl⟩

theorem Like.stop (h : p.Like shaded p') : Alike (Like false) p.stop p'.stop := by
  obtain ⟨stream, rfl, hs⟩ := h.cases
  exact hs.disable.bind fun s s' hs => .done ⟨hs, rfl⟩

theorem Like.executingHalf (h : p.Like shaded p') : Alike Eq p.executingHalf p'.executingHalf := by
  obtain ⟨stream, rfl, hs⟩ := h.cases
  exact hs.queued.bind fun n _ hn => hn ▸ .done rfl

theorem Like.pushStaged (h : p.Like shaded p') (upTo : Nat) :
    Alike (Paired (Like shaded)) (p.pushStaged upTo) (p'.pushStaged upTo) := by
  obtain ⟨stream, rfl, hs⟩ := h.cases
  unfold ReceivePump.pushStaged
  show Alike _ (if upTo ≤ p.position then _ else _) (if upTo ≤ p.position then _ else _)
  split
  · exact .done ⟨rfl, h⟩
  · refine alike_bind_self (uses_perform (.load ..) trivial) fun data => ?_
    refine alike_bind_self (.when _ (uses_notify _ fun _ => trivial)) fun _ => ?_
    exact .done ⟨rfl, hs, rfl⟩

theorem Like.onInterrupt (h : p.Like shaded p') (event : TransferEvent) :
    Alike (Paired (Like false)) (p.onInterrupt event) (p'.onInterrupt event) := by
  obtain ⟨stream, rfl, hs⟩ := h.cases
  refine (hs.onInterrupt event).next fun result s s' hs => ?_
  have hp : Like false { p with stream := s } { p with stream := s' } := ⟨hs, rfl⟩
  cases result with
  | none => exact .done ⟨rfl, hp⟩
  | some status =>
    show Alike _ (if event = .progress then _ else _) (if event = .progress then _ else _)
    split
    · refine hp.executingHalf.bind fun half _ hhalf => ?_
      subst hhalf
      refine (hp.pushStaged _).next fun count p p' hp => ?_
      obtain ⟨stream, rfl, hs⟩ := hp.cases
      exact .done ⟨rfl, hs, rfl⟩
    · exact .done ⟨rfl, hp⟩

theorem Like.onIdle (h : p.Like shaded p') :
    Alike (Paired (Like shaded)) p.onIdle p'.onIdle := by
  obtain ⟨stream, rfl, hs⟩ := h.cases
  have hbound : stream.bound = p.stream.bound := by rw [hs.rest]
  unfold ReceivePump.onIdle
  show Alike _ (if (!p.stream.bound) = true then _ else _) (if (!stream.bound) = true then _ else _)
  rw [hbound]
  split
  · exact .done ⟨rfl, h⟩
  · refine h.executingHalf.bind fun half _ hhalf => ?_
    subst hhalf
    refine hs.residue.bind fun residue _ hresidue => ?_
    subst hresidue
    cases residue with
    | error e => exact .done ⟨rfl, h⟩
    | ok residue =>
      refine h.executingHalf.bind fun again _ hagain => ?_
      subst hagain
      show Alike _ (if again ≠ half ∨ p.position / p.half ≠ half then _ else _)
        (if again ≠ half ∨ p.position / p.half ≠ half then _ else _)
      split
      · exact .done ⟨rfl, h⟩
      · refine (h.pushStaged _).next fun count p p' hp => ?_
        obtain ⟨stream, rfl, hs⟩ := hp.cases
        exact .done ⟨rfl, hs, rfl⟩

/-- A timeout of the channel is nothing to the pump. -/
theorem Like.late (h : p.Like shaded p') :
    (p'.onInterrupt .timeout).Uses (fun a => a.Idle ∨ a.Late) fun r =>
      r.1 = (if p.stream.bound then some .timeout else none) ∧ p.Like true r.2 := by
  obtain ⟨stream, rfl, hs⟩ := h.cases
  refine hs.late.bind ?_
  rintro ⟨result, s⟩ ⟨hresult, -, hs⟩
  cases result with
  | none => exact .done ⟨hresult, hs, rfl⟩
  | some status => exact .done ⟨hresult, hs, rfl⟩

end ReceivePump

end ScatterGather
