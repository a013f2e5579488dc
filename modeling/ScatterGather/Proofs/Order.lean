import ScatterGather.Proofs.Rig

/-!
# ScatterGather.Proofs.Order — a one-shot stream executes its blocks once each, in order

Between the blocks that a controller has finished and the blocks that it still has to do lies
nothing but its position. `Pool.blocksFrom` are the queued blocks from an offset on, and the
invariant of this module is one equation: what was accepted is what was executed, followed by the
blocks from the controller's position on (`Rig.InOrder.blocks`). Queueing extends both sides at
their end, the end of a block moves one block across, and retiring changes the offsets but not the
list.

The rest of `InOrder` keeps blocks from being forgotten: a chain is discarded only when it is empty,
and the channel is free whenever the stream claims it (`Settled`).
-/

namespace ScatterGather

/-! ## Who holds the channel -/

namespace Ownership

variable {t : Ownership} {channel : Nat} {owner : OwnerId}

theorem bind_free (owner : OwnerId) (hc : channel < maxChannels) (h : t.owner channel = none) :
    (t.bind channel owner).1 = .ok () ∧ (t.bind channel owner).2.owner channel = some owner := by
  have hnone : t.owners[channel] = none := by simpa [Ownership.owner, hc] using h
  constructor <;> simp [bind, Ownership.owner, hc, hnone]

theorem release_holder (hc : channel < maxChannels) (h : t.owner channel = some owner) :
    (t.release channel owner).2.owner channel = none := by
  have hsome : t.owners[channel] = some owner := by simpa [Ownership.owner, hc] using h
  simp [release, Ownership.owner, hc, hsome]

end Ownership

namespace Stream

variable {s : Stream} {v : Scene} {k : Nat}

/-- The stream holds its channel while it is bound, nobody does otherwise, and a chain that ended
has no blocks left. -/
structure Settled (s : Stream) (v : Scene) : Prop where
  number : s.channel.number < maxChannels
  holder : v.ownership.owner s.channel.number = if s.bound then some s.owner else none
  bound : s.bound = true → s.state = .busy ∨ s.state = .timeout
  unbound : s.bound = false →
    s.state = .idle ∨ s.state = .ready ∨ (s.state = .done ∧ s.pool.queued = 0)

theorem Settled.congr {s' : Stream} {v' : Scene} (h : s.Settled v) (hc : s'.channel = s.channel)
    (ho : s'.owner = s.owner) (hb : s'.bound = s.bound) (hst : s'.state = s.state)
    (hp : s'.pool = s.pool) (hv : v'.ownership = v.ownership) : s'.Settled v' where
  number := hc ▸ h.number
  holder := by
    rw [hc, hb, ho, hv]
    exact h.holder
  bound hb' := hst ▸ h.bound (hb ▸ hb')
  unbound hb' := by
    rw [hst, hp]
    exact h.unbound (hb ▸ hb')

theorem Settled.held {s' : Stream} {v' : Scene} (h : s.Settled v) (hb : s.bound = true)
    (hb' : s'.bound = true) (hc : s'.channel = s.channel) (ho : s'.owner = s.owner)
    (hst : s'.state = .busy ∨ s'.state = .timeout) (hv : v'.ownership = v.ownership) :
    s'.Settled v' where
  number := hc ▸ h.number
  holder := by
    have hholder := h.holder
    rw [if_pos hb] at hholder
    rw [hc, ho, hv, if_pos hb', hholder]
  bound _ := hst
  unbound hn := by
    rw [hb'] at hn
    cases hn

theorem Settled.empty_of_done (h : s.Settled v) (hdone : s.state = .done) : s.pool.queued = 0 := by
  by_cases hb : s.bound = true
  · rcases h.bound hb with hst | hst
    · rw [hst] at hdone
      cases hdone
    · rw [hst] at hdone
      cases hdone
  · rcases h.unbound (Bool.eq_false_iff.mpr hb) with hst | hst | ⟨-, hq⟩
    · rw [hst] at hdone
      cases hdone
    · rw [hst] at hdone
      cases hdone
    · exact hq

/-- Discarding an ended chain forgets no block. -/
theorem Settled.discardFinished (h : s.Settled v) :
    s.discardFinished.Settled v ∧
      s.discardFinished.pool.blocksFrom v.table k = s.pool.blocksFrom v.table k := by
  unfold Stream.discardFinished
  split
  · next hd =>
    obtain ⟨hb, hfinal⟩ : s.bound = false ∧ s.state.isFinal = true := by simpa using hd
    -- a chain that ended by itself has no blocks left to forget
    rcases h.unbound hb with hst | hst | ⟨hst, hq⟩
    · rw [hst] at hfinal
      cases hfinal
    · rw [hst] at hfinal
      cases hfinal
    · refine ⟨⟨h.number, h.holder, h.bound, fun _ => .inr (.inr ⟨hst, rfl⟩)⟩, ?_⟩
      rw [Pool.blocksFrom_of_empty hq]
      exact Pool.blocksFrom_of_empty rfl
  · exact ⟨h, rfl⟩

/-! ## What the operations do to the blocks that are left -/

/-- From one moment to another the stream stays settled, and the blocks that are left become fewer
by `gone` at the front and more by `new` at the end. -/
structure Passes (s : Stream) (v : Scene) (k : Nat) (gone new : List Block) (s' : Stream)
    (v' : Scene) (k' : Nat) : Prop where
  settled : s'.Settled v'
  blocks : s.pool.blocksFrom v.table k ++ new = gone ++ s'.pool.blocksFrom v'.table k'

/-- Nothing is queued, nothing is done, and no descriptor gets another body. -/
theorem Settled.passes {s' : Stream} {v' : Scene} (h : s'.Settled v') (hp : s'.pool = s.pool)
    (hbody : ∀ a, (v'.table.read a).body = (v.table.read a).body) :
    s.Passes v k [] [] s' v' k where
  settled := h
  blocks := by
    rw [List.append_nil, List.nil_append, hp, Pool.blocksFrom_congr fun _ _ => hbody _]

section Passes

variable (h : s.Sound v k) (hs : s.Settled v)

include h hs

theorem passes_append (destination source size : Nat) :
    s.Passes v k [] (s.requested destination source size
        (v.exec (s.append destination source size)).1.1)
      (v.exec (s.append destination source size)).1.2
      (v.exec (s.append destination source size)).2 k := by
  obtain ⟨hsettled, hblocks⟩ := hs.discardFinished (k := k)
  rcases h.append_cases destination source size with
    ⟨e, s', hexec, rfl | rfl⟩ | ⟨elements, hcheck, hroom, hexec⟩
  · rw [hexec]
    exact hs.passes rfl fun _ => rfl
  · rw [hexec]
    exact ⟨hsettled, by rw [hblocks]; exact List.append_nil _⟩
  · have hd := h.discardFinished
    have hcheck' : s.discardFinished.checkBlock destination source size = .ok elements := by
      rw [checkBlock, config_discardFinished]
      exact hcheck
    rw [hexec]
    refine ⟨⟨hsettled.number, hsettled.holder, ?_, ?_⟩, ?_⟩
    · intro hb
      rw [appended, if_pos (show s.discardFinished.bound = true from hb)]
      exact hsettled.bound hb
    · intro hb
      have hb' : ¬s.discardFinished.bound = true := by
        rw [show s.discardFinished.bound = false from hb]
        exact Bool.false_ne_true
      rw [appended, if_neg hb']
      exact .inr (.inl rfl)
    · rw [← hblocks, List.nil_append]
      refine Eq.trans ?_ (hd.blocksFrom_appended hroom hd.offset_le hcheck').symm
      rw [requested, requested, config_discardFinished]

omit h in
theorem passes_configure (settings : TransferSettings) :
    s.Passes v k [] [] (s.configure settings).2 v k := by
  unfold configure
  split
  · exact hs.passes rfl fun _ => rfl
  · -- settings apply to blocks that are queued later
    split <;>
    · refine Settled.passes ?_ rfl fun _ => rfl
      exact hs.congr rfl rfl rfl rfl rfl rfl

theorem passes_setCallback (callback : Option Callback) :
    s.Passes v k [] [] (v.exec (s.setCallback callback)).1
      (v.exec (s.setCallback callback)).2 k := by
  refine Settled.passes ?_ (by rw [exec_setCallback]) fun a => body_setCallback h.sits a callback
  rw [exec_setCallback]
  exact hs.congr rfl rfl rfl rfl rfl (by split <;> rfl)

theorem passes_enable : s.Passes v k [] [] (v.exec s.enable).1.2 (v.exec s.enable).2 k := by
  have hbody (a : Nat) := body_enable h.sits a
  rw [exec_enable] at hbody ⊢
  by_cases hb : s.bound ∨ s.pool.queued = 0
  · rw [if_pos hb]
    exact hs.passes rfl fun _ => rfl
  · -- nobody else claims channels, so the claim is granted
    obtain ⟨hunbound, -⟩ := not_or.mp hb
    have hfree : v.ownership.owner s.channel.number = none := by
      rw [hs.holder, if_neg hunbound]
    obtain ⟨hok, howner⟩ := Ownership.bind_free s.owner hs.number hfree
    rw [if_neg hb] at hbody ⊢
    rcases hbind : v.ownership.bind s.channel.number s.owner with ⟨granted, ownership⟩
    rw [hbind] at hok howner hbody
    obtain rfl : granted = .ok () := hok
    exact Settled.passes ⟨hs.number, howner, fun _ => .inl rfl, nofun⟩ rfl hbody

/-- An event other than a bus error forgets no block that is left. -/
theorem passes_onInterrupt (hm : s.isCircular = false) (hp : s.config.timeoutPolicy = .restart)
    {event : TransferEvent} (he : event ≠ .busError) :
    s.Passes v k [] [] (v.exec (s.onInterrupt event)).1.2 (v.exec (s.onInterrupt event)).2
      (s.offsetAfter event k) := by
  rw [Stream.exec_onInterrupt]
  unfold offsetAfter
  by_cases hb : s.bound = true
  · have hholder : v.ownership.owner s.channel.number = some s.owner := by
      rw [hs.holder, if_pos hb]
    have hretired := h.retired_oneShot hb hm
    -- retiring drops what the controller has moved past, and no more
    have hblocks := Pool.blocksFrom_retire (t := v.table) h.offset_le
    rw [if_pos hb, if_pos hb]
    cases event with
    | busError => exact absurd rfl he
    | progress =>
      rw [exec_react_progress, hretired, retiredOffset, hm]
      exact ⟨hs.held hb hb rfl rfl (.inl rfl) rfl, by rw [List.append_nil]; exact hblocks.symm⟩
    | complete =>
      rw [exec_react_complete, hretired]
      by_cases hgo : s.isCircular = false ∧ (s.pool.retire k).queued ≠ 0
      · rw [if_pos hgo]
        exact ⟨hs.held hb hb rfl rfl (.inl rfl) rfl,
          by rw [List.append_nil]; exact hblocks.symm⟩
      · rw [if_neg hgo]
        have hq : (s.pool.retire k).queued = 0 := by
          simpa [hm] using hgo
        exact ⟨⟨hs.number, Ownership.release_holder hs.number hholder, nofun,
          fun _ => .inr (.inr ⟨rfl, hq⟩)⟩, by rw [List.append_nil]; exact hblocks.symm⟩
    | timeout =>
      obtain ⟨left, hleft⟩ := exec_react_timeout s v
      rw [hleft, hp, if_neg nofun, if_neg nofun]
      have hheld : Settled { s with state := .timeout } { v with pendingPolls := left } :=
        hs.held hb hb rfl rfl (.inr rfl) rfl
      exact hheld.passes rfl fun _ => rfl
  · rw [if_neg hb, if_neg hb]
    exact hs.passes rfl fun _ => rfl

omit h in
theorem passes_moveElements (count : Nat) : s.Passes v k [] [] s (v.moveElements count) k := by
  have hsettled : s.Settled (v.moveElements count) :=
    hs.congr rfl rfl rfl rfl rfl (v.ownership_moveElements count)
  apply hsettled.passes rfl
  intro a
  rw [v.table_moveElements]

/-- The block that the controller finishes is the first that is left. -/
theorem passes_finish (hm : s.isCircular = false) :
    s.Passes v k
      (if v.current = 0 then [] else [(v.table.read v.current).block]) [] s v.finish
      (if v.current = 0 then k else s.follow k) := by
  have hsettled : s.Settled v.finish := hs.congr rfl rfl rfl rfl rfl v.ownership_finish
  by_cases hc : v.current = 0
  · rw [if_pos hc, if_pos hc]
    exact hsettled.passes rfl fun a => by rw [v.table_finish]
  · -- the block at the controller's position is the head of the list
    obtain ⟨-, hq, hcur⟩ := h.executing hc
    rw [if_neg hc, if_neg hc, follow_oneShot hm]
    refine ⟨hsettled, ?_⟩
    rw [v.table_finish, List.append_nil, Pool.blocksFrom_cons hq, hcur]
    rfl

end Passes

end Stream

/-! ## Runs -/

/-- Whether an action gives blocks a chance to be executed, and none to be given up: operations that
queue and start, moves of the controller, and events other than bus errors. -/
def Action.orderly : Action → Bool
  | .disable | .clear | .relocate | .contend _ => false
  | .interrupt event => event ≠ .busError
  | _ => true

namespace Rig

/-- What was accepted is what was executed, followed by what is left. -/
structure InOrder (r : Rig) (k : Nat) : Prop where
  attached : r.Attached
  sound : r.stream.Sound r.scene k
  oneShot : r.stream.isCircular = false
  restart : r.stream.config.timeoutPolicy = .restart
  settled : r.stream.Settled r.scene
  raised : .busError ∉ r.raised
  blocks : r.accepted = r.executed ++ r.stream.pool.blocksFrom r.machine.table k

variable {r : Rig} {k : Nat}

/-- An action that moves blocks from the front of what is left to what is executed, and that queues
what it accepts, keeps the order. -/
theorem InOrder.passes (h : r.InOrder k) (a : Action) {gone new : List Block}
    (hp : r.stream.Passes r.scene k gone new (r.step a).stream (r.step a).scene (r.offsetAfter k a))
    (hraised : .busError ∉ (r.step a).raised) (hacc : (r.step a).accepted = r.accepted ++ new)
    (hexec : (r.step a).executed = r.executed ++ gone) :
    (r.step a).InOrder (r.offsetAfter k a) where
  attached := h.attached.step a
  sound := h.attached.sound_step h.sound a
  oneShot := (h.attached.same_step a).isCircular.trans h.oneShot
  restart := (h.attached.same_step a).timeoutPolicy.trans h.restart
  settled := hp.settled
  raised := hraised
  blocks := by
    have hblocks : r.stream.pool.blocksFrom r.machine.table k ++ new = _ := hp.blocks
    rw [hacc, hexec, h.blocks, List.append_assoc, hblocks, ← List.append_assoc]
    rfl

theorem InOrder.interrupt (h : r.InOrder k) {event : TransferEvent} (he : event ≠ .busError) :
    r.stream.Passes r.scene k [] [] (r.interrupt event).stream (r.interrupt event).scene
      (r.stream.offsetAfter event k) :=
  h.attached.driven (P := fun s v => r.stream.Passes r.scene k [] [] s v _) _ Prod.snd
    (Stream.passes_onInterrupt h.sound h.settled h.oneShot h.restart he)

/-- What was raised first is delivered. -/
theorem InOrder.deliver (h : r.InOrder k) :
    (r.step .deliver).InOrder (r.offsetAfter k .deliver) := by
  have hnil {l : List Block} : l = l ++ [] := (List.append_nil l).symm
  cases hraised : r.raised with
  | nil =>
    have hoff : r.offsetAfter k .deliver = k := by rw [offsetAfter, hraised]
    rw [step_deliver_nil hraised, hoff]
    exact h
  | cons event raised =>
    have hstep := step_deliver_cons hraised
    have hoff : r.offsetAfter k .deliver = r.stream.offsetAfter event k := by
      rw [offsetAfter, hraised]
    have hmem := h.raised
    rw [hraised, List.mem_cons, not_or] at hmem
    have hp : r.stream.Passes r.scene k [] [] (r.step .deliver).stream (r.step .deliver).scene
        (r.offsetAfter k .deliver) := by
      rw [hstep, hoff]
      exact h.interrupt (Ne.symm hmem.1)
    refine h.passes .deliver hp ?_ ?_ ?_
    · rw [hstep]
      exact hmem.2
    · rw [hstep]
      exact hnil
    · rw [hstep]
      exact hnil

/-- The block that the controller finishes moves across. -/
theorem InOrder.finish (h : r.InOrder k) : (r.step .finish).InOrder (r.offsetAfter k .finish) := by
  have hevent : (r.machine.finish r.index).1 = r.scene.finishEvent := h.attached.finish_event
  have hscene : (r.step .finish).scene = r.scene.finish := h.attached.scene_finish
  have hp := Stream.passes_finish h.sound h.settled h.oneShot
  rw [← hscene] at hp
  refine h.passes _ hp ?_ (List.append_nil _).symm ?_
  · show .busError ∉ r.raised ++ (r.machine.finish r.index).1.toList
    rw [hevent, List.mem_append, not_or]
    exact ⟨h.raised, r.scene.finishEvent_ne_busError⟩
  · show r.executed ++ r.executing = _
    rw [executing, Controller.isRunning]
    by_cases hc : r.controller.current = 0
    · rw [if_pos (show r.scene.current = 0 from hc)]
      simp [hc]
    · rw [if_neg (show ¬r.scene.current = 0 from hc)]
      simp only [hc, ne_eq, not_false_iff, decide_true, if_true]
      rfl

/-- No orderly action loses, repeats or reorders a block. -/
theorem InOrder.step (h : r.InOrder k) {a : Action} (hok : a.orderly = true) :
    (r.step a).InOrder (r.offsetAfter k a) := by
  have hdriven {α : Type} := h.attached.driven
    (P := fun s v => r.stream.Passes r.scene k [] [] s v k) (α := α)
  have hnil {l : List Block} : l = l ++ [] := (List.append_nil l).symm
  cases a with
  | disable | clear | relocate | contend => cases hok
  | append destination source size =>
    have hp := Machine.Attached.driven h.attached
      (P := fun (out : Except DmaError Unit × Stream) v =>
        r.stream.Passes r.scene k [] (r.stream.requested destination source size out.1) out.2 v k)
      _ id (Stream.passes_append h.sound h.settled destination source size)
    exact h.passes _ hp h.raised rfl hnil
  | configure settings =>
    exact h.passes _ (Stream.passes_configure h.settled settings) h.raised hnil hnil
  | setCallback callback =>
    have hp := hdriven _ id (Stream.passes_setCallback h.sound h.settled callback)
    exact h.passes _ hp h.raised hnil hnil
  | enable =>
    have hp := hdriven _ Prod.snd (Stream.passes_enable h.sound h.settled)
    exact h.passes _ hp h.raised hnil hnil
  | deliver => exact h.deliver
  | interrupt event =>
    have hne : event ≠ .busError := of_decide_eq_true hok
    exact h.passes _ (h.interrupt hne) h.raised hnil hnil
  | moveElements count =>
    have hp := Stream.passes_moveElements (k := k) h.settled count
    have hscene : (r.step (.moveElements count)).scene = r.scene.moveElements count :=
      h.attached.scene_moveElements count
    rw [← hscene] at hp
    exact h.passes _ hp h.raised hnil hnil
  | finish => exact h.finish
  | fillFifo polls =>
    have hscene : (r.step (.fillFifo polls)).scene = { r.scene with pendingPolls := polls } :=
      h.attached.scene_setController _
    have hsettled : r.stream.Settled (r.step (.fillFifo polls)).scene :=
      h.settled.congr rfl rfl rfl rfl rfl (by rw [hscene])
    exact h.passes _ (hsettled.passes rfl fun _ => rfl) h.raised hnil hnil

theorem inOrder_make {m : Machine} {number index capacity : Nat} {config : StreamConfig}
    (hcap : 0 < capacity) (hindex : index < m.controllers.size)
    (htruth : (m.controller index).Truthful) (hstop : (m.controller index).current = 0)
    (hfree : m.ownership.owner number = none) (hmode : config.mode = .oneShot)
    (hpolicy : config.timeoutPolicy = .restart) (hr : m.rig number index capacity config = .ok r) :
    r.InOrder 0 := by
  obtain ⟨ha, hs⟩ := sound_make hcap hindex htruth hstop hr
  obtain ⟨hnumber, rfl⟩ := Machine.rig_ok hr
  refine ⟨ha, hs, ?_, hpolicy, ⟨hnumber, hfree, nofun, fun _ => .inl rfl⟩, List.not_mem_nil, ?_⟩
  · show decide (config.mode = .circular) = false
    rw [hmode]
    rfl
  · exact (Pool.blocksFrom_of_empty rfl).symm

/-- **A one-shot stream executes every block that it accepts once, and in the order of acceptance.**
The blocks that the controller has finished are a prefix of the blocks that were accepted, and all
of them when the stream is done. The order holds even if completions are delivered that the
controller never raised. -/
theorem executed_in_order {m : Machine} {number index capacity : Nat} {config : StreamConfig}
    (hcap : 0 < capacity) (hindex : index < m.controllers.size)
    (htruth : (m.controller index).Truthful) (hstop : (m.controller index).current = 0)
    (hfree : m.ownership.owner number = none) (hmode : config.mode = .oneShot)
    (hpolicy : config.timeoutPolicy = .restart) (hr : m.rig number index capacity config = .ok r)
    (actions : List Action) (hok : ∀ a ∈ actions, a.orderly = true) :
    (r.run actions).executed <+: (r.run actions).accepted ∧
      ((r.run actions).stream.state = .done →
        (r.run actions).executed = (r.run actions).accepted) := by
  have h := inOrder_make hcap hindex htruth hstop hfree hmode hpolicy hr
  obtain ⟨k, hk⟩ := run_induction (P := fun r => ∃ k, r.InOrder k)
    (Q := fun a => a.orderly = true) ⟨0, h⟩ (fun r a ha hr => hr.elim fun k hk => ⟨_, hk.step ha⟩)
    actions hok
  refine ⟨⟨_, hk.blocks.symm⟩, ?_⟩
  intro hdone
  rw [hk.blocks, Pool.blocksFrom_of_empty (hk.settled.empty_of_done hdone), List.append_nil]

/-- A block comes too late for a controller that has stopped, and is executed after a restart. -/
theorem executed_in_order_underrun :
    ∃ r, Machine.rig { controllers := #[{}] } 3 0 2 {} = .ok r ∧
      (r.run [.append 0 64 8, .enable, .finish, .append 8 72 8, .deliver, .finish,
          .deliver]).executed =
        (r.run [.append 0 64 8, .enable, .finish, .append 8 72 8, .deliver, .finish,
          .deliver]).accepted := by
  obtain ⟨r, hr⟩ : ∃ r, Machine.rig { controllers := #[{}] } 3 0 2 {} = .ok r := ⟨_, rfl⟩
  have hdone : ((Machine.rig { controllers := #[{}] } 3 0 2 {}).toOption.map fun r =>
      (r.run [.append 0 64 8, .enable, .finish, .append 8 72 8, .deliver, .finish,
        .deliver]).stream.state) = some .done := by decide +kernel
  rw [hr] at hdone
  exact ⟨r, hr, (executed_in_order (by decide) (by decide) ⟨rfl, rfl, rfl⟩ rfl rfl rfl rfl hr _
    (by decide)).2 (Option.some.inj hdone)⟩

end Rig

end ScatterGather
