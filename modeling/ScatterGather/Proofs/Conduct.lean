import ScatterGather.Proofs.Settled

/-!
# ScatterGather.Proofs.Conduct — every move on a bench leaves the streams in order

One lemma for each thing that can be asked of a bench: commands to slots, with whatever happens
during a wait or a call from inside another; commands to streams, pumps and controllers; claims by
the tester; and the making of objects. Each finds the bench `Settled` and leaves it so. An identity
that is handed out on the way is one more than there were (`Bench.Advances`).
-/

namespace ScatterGather

namespace Bench

variable {given : List OwnerId} {issued : Nat} {b : Bench} {i : Nat}

namespace Settled

/-! ## Commands to slots -/

/-- A call from inside another one finds the bench settled, and leaves it so if what it does
does. -/
theorem inside (h : b.Settled given issued) {s : Slot} (hs : b.slot? i = some s)
    {act : Slot → Bench → Reply × Bench}
    (hact : ∀ s b, Settled given issued b → (act s b).2.Settled given issued) :
    (b.inside i s act).2.Settled given issued := by
  unfold Bench.inside
  split
  · exact h
  · exact h
  · next cell _ henter =>
    -- entering and leaving the cell keep the stream in it
    have hentered :
        (b.withSlot i () fun s m => ((), { s with cell }, m)).2.Settled given issued := by
      refine h.withSlot () fun s' hs' hsettled => ?_
      rw [hs] at hs'
      cases hs'
      show Tenancy given issued (b.tenants.set (.slot i) cell.value) b.machine
      rw [Cell.value_of_enter? henter]
      exact hsettled
    refine (hact _ _ hentered).withSlot () fun s' _ hsettled => ?_
    show Tenancy given issued (Seating.set _ (.slot i) s'.cell.leave.value) _
    rw [Cell.value_leave]
    exact hsettled

theorem runHook (h : b.Settled given issued) (waited : Nat) (hook : Hook) :
    (b.runHook i waited hook).Settled given issued := by
  unfold Bench.runHook
  split
  · exact h
  · cases hook.event with
    | some event =>
      have htell := h.tell (.hook waited (some event))
      cases hook.dispatch with
      | none => exact htell.arrive event
      | some channel => exact htell.dispatch channel event
    | none =>
      -- the controller goes on until it raises an event, if it does
      have hrun :=
        h.runController ((b.object? i).elim (.controller 0) Object.hardware) hook.patience
      dsimp only
      generalize b.runController _ hook.patience = r at hrun ⊢
      obtain ⟨event, b'⟩ := r
      have htell : Settled given issued (b'.tell (.hook waited event)) := Settled.tell hrun _
      cases event with
      | none => exact htell
      | some event =>
        cases hook.dispatch with
        | none => exact htell.arrive event
        | some channel => exact htell.dispatch channel event

theorem runHooks (h : b.Settled given issued) (waited : Nat) (hooks : List Hook) :
    (hooks.foldl (Bench.runHook i waited) b).Settled given issued := by
  induction hooks generalizing b with
  | nil => exact h
  | cons hook hooks ih => exact ih (h.runHook waited hook)

theorem waitAmid (h : b.Settled given issued) (hooks : List Hook) (timeout : UInt32) (polls : Nat)
    (elapsed : UInt32) (waited : Nat) :
    (SlotScript.waitAmid (fun p => (p.1.slot? i).bind Slot.status) (runDelay i hooks) timeout
      polls elapsed (b, waited)).2.1.Settled given issued := by
  induction polls generalizing b elapsed waited with
  | zero => exact h
  | succ polls ih =>
    rw [SlotScript.waitAmid]
    cases SlotScript.outcome ((b.slot? i).bind Slot.status) with
    | some result => exact h
    | none =>
      by_cases htimeout : timeout ≤ elapsed
      · simp only [if_pos htimeout]
        exact h
      · simp only [if_neg htimeout]
        exact ih (h.runHooks _ hooks) _ _

/-- A wait leaves the bench settled, whatever happens in the meantime. -/
theorem wait (h : b.Settled given issued) (timeout : UInt32) (hooks : List Hook) :
    (b.wait i timeout hooks).2.Settled given issued := by
  unfold Bench.wait
  generalize SlotScript.pollLimit = polls
  exact h.waitAmid hooks timeout polls 0 0

/-- A stream that is installed in a slot comes there on fresh descriptors, once the one before it
was dropped. -/
theorem install (h : b.Settled given issued) {s : Slot} (hs : b.slot? i = some s)
    {controller : Nat} (hi : b.object? i = some (.slot controller)) (source : Nat) :
    (b.install i s controller source).2.Settled given issued := by
  unfold Bench.install
  cases hsource : b.object? source with
  | none => exact h
  | some o =>
    cases o with
    | transmit p => exact h
    | receive p => exact h
    | slot j => exact h
    | stream stream label =>
      by_cases hb : stream.bound = true
      · simp only [hb, if_true]
        exact h.dropObject source
      · simp only [hb, if_false, Bool.false_eq_true]
        have hx : b.tenants (.object source) = some stream := tenants_object hsource
        have hmoved := Tenancy.transfer (y := .slot i) h hx (Bool.eq_false_iff.mpr hb) (by simp)
        rw [tenants_slot hs] at hmoved
        -- the slot's object has no stream of its own, whatever controller it names
        have hseated (c : Nat) : (((b.setObject source none).setObject i (some (.slot c))).setSlot i
            (s.replace (some (b.machine.relocate stream).1))).tenants =
              (b.tenants.set (.object source) none).set (.slot i)
                (some (b.machine.relocate stream).1) := by
          have hobjects : i < (b.setObject source none).objects.size := by
            simpa [setObject] using object?_lt hi
          have hnone : b.tenants.set (.object source) none (.object i) = none := by
            rw [Seating.set_of_ne]
            · exact tenants_object hi
            · rintro ⟨⟩
              rw [hi] at hsource
              cases hsource
          have hslots : i < ((b.setObject source none).setObject i (some (.slot c))).slots.size :=
            slot?_lt hs
          rw [tenants_setSlot hslots, tenants_setObject hobjects,
            tenants_setObject (object?_lt hsource)]
          congr 1
          exact Seating.set_eq_self hnone
        have hall (c : Nat) := (hseated c).symm ▸ hmoved
        cases hprevious : s.stream? with
        | none =>
          rw [hprevious] at hall
          exact hall _
        | some previous =>
          rw [hprevious] at hall
          exact hall _

/-- A stream that is taken out of a slot replaces the object at the place that it comes to. -/
theorem take (h : b.Settled given issued) {s : Slot} (hs : b.slot? i = some s) (target : Nat) :
    (b.take i s target).2.Settled given issued := by
  unfold Bench.take
  cases hstream : s.stream? with
  | none => exact h
  | some stream =>
    have hx : b.tenants (.slot i) = some stream := (tenants_slot hs).trans hstream
    have hmeasured : Tenancy given issued b.tenants b.measure.measure.machine := h.measure.measure
    have hvacant : (b.setSlot i (s.replace none)).tenants = b.tenants.set (.slot i) none :=
      tenants_setSlot (slot?_lt hs) _
    by_cases hb : stream.bound = true
    · simp only [hb, if_true]
      have hdropped := hmeasured.drop hx
      rw [← hvacant] at hdropped
      exact hdropped
    · simp only [hb, if_false, Bool.false_eq_true]
      have hb : stream.bound = false := Bool.eq_false_iff.mpr hb
      generalize hr : b.measure.measure.machine.relocate stream = r
      have hfound : (b.setSlot i (s.replace none)).measure.measure.machine.relocate stream = r := hr
      rw [hfound]
      have hleft : Bench.tenants
          { (b.setSlot i (s.replace none)).measure.measure with machine := r.2 } =
            b.tenants.set (.slot i) none := hvacant
      generalize hb' : ({ (b.setSlot i (s.replace none)).measure.measure with machine := r.2 } :
        Bench) = b' at hleft ⊢
      have hmachine : b'.machine = r.2 := by rw [← hb']
      by_cases htarget : target < b'.objects.size
      · have hmoved := hmeasured.transfer (y := .object target) hx hb (by simp)
        rw [hr] at hmoved
        refine replaceObject ?_ htarget
        unfold without
        rw [hleft, hmachine, Seating.set_of_ne (by simp)]
        exact hmoved
      · -- there is no such place, and the stream is lost
        have hle := Nat.not_lt.mp htarget
        have hlost := (hmeasured.relocate hx hb).leave Seating.set_self hb
        rw [hr, Seating.set_set, ← hleft, ← hmachine] at hlost
        rw [letGo_of_le hle, setObject_of_le hle]
        exact hlost

theorem slotStep (h : b.Settled given issued) {s : Slot} (hs : b.slot? i = some s)
    {controller : Nat} (hi : b.object? i = some (.slot controller)) (command : SlotCommand) :
    (b.slotStep i s controller command).2.Settled given issued := by
  unfold Bench.slotStep
  cases command with
  | install source => exact h.install hs hi source
  | take target => exact h.take hs target
  | status => exact h
  | event event => exact h.arrive event
  | waitBlocking => exact h
  | waitTimeout timeout hooks => exact h.wait timeout hooks
  | poll future task =>
    exact h.withSlot none fun s' _ hs' => SlotSettled.exec (p := (s'.admitTask task, _)) hs' _
  | eventInside event => exact h.inside hs fun _ _ h => h.arrive event
  | attemptInside => exact h.inside hs fun _ _ h => h
  | callInside => exact h.inside hs fun _ _ h => h
  | statusInside => exact h.inside hs fun _ _ h => h
  | stream command =>
    dsimp only
    cases hstream : s.stream? with
    | none => exact h
    | some stream =>
      have hx : b.tenants (.slot i) = some stream := (tenants_slot hs).trans hstream
      have ht := (command.tends stream i b.machine (Tenancy.housed h _ _ hx).seated).2
      exact h.tendSlot hs hstream ht rfl

/-! ## Commands to other objects -/

theorem interrupt (h : b.Settled given issued) {o : Object} (ho : b.object? i = some o)
    (event : TransferEvent) : (b.interrupt i o event).2.Settled given issued := by
  have hseated {s : Stream} (hs : o.ownStream? = some s) : s.Seated b.machine :=
    (Tenancy.housed h _ _ ((tenants_object ho).trans hs)).seated
  cases o with
  | stream s label =>
    exact h.tendObject ho rfl (Stream.tends_onInterrupt event _ (hseated rfl)).2 rfl
  | transmit p =>
    exact h.tendObject ho rfl (TransmitPump.tends_onInterrupt event _ (hseated rfl)).2 rfl
  | receive p =>
    exact h.tendObject ho rfl (ReceivePump.tends_onInterrupt event _ (hseated rfl)).2 rfl
  | slot controller => exact h.arrive event

theorem service (h : b.Settled given issued) {o : Object} (ho : b.object? i = some o)
    (patience : Nat) : (b.service i o patience).2.Settled given issued := by
  have hrun := h.runController o.hardware patience
  have hobject : (b.runController o.hardware patience).2.object? i = some o := by
    unfold Bench.runController
    split <;> exact ho
  unfold Bench.service
  generalize b.runController o.hardware patience = r at hrun hobject ⊢
  obtain ⟨event, b'⟩ := r
  cases event with
  | none => exact hrun
  | some event => exact Settled.interrupt hrun hobject event

theorem windowStep (h : b.Settled given issued) {o : Object} (ho : b.object? i = some o)
    (s : Stream) (index : Nat) (command : WindowCommand) :
    (b.windowStep i o s index command).2.Settled given issued := by
  have hwindow (w : RegisterWindow) :
      Settled given issued { b with machine := b.machine.setWindow index w } :=
    h.undisturbed ⟨rfl, rfl, fun _ => rfl, fun _ => rfl⟩
  cases command with
  | write register value => exact hwindow _
  | writeSlot register slot byte =>
    exact h.measure.undisturbed ⟨rfl, rfl, fun _ => rfl, fun _ => rfl⟩
  | service =>
    unfold Bench.windowStep
    generalize (b.machine.window index).takeFlags = r
    obtain ⟨flags, window⟩ := r
    dsimp only
    cases flags.event with
    | none => exact hwindow window
    | some event => exact Settled.interrupt (hwindow window) ho event

theorem arriveBytes (h : b.Settled given issued) (index register : Nat) (deliver : Bool)
    (data : List UInt8) :
    (Bench.arriveBytes i index register deliver data b).2.Settled given issued := by
  -- on the bytes: each is written, moved, and perhaps ends a block
  induction data generalizing b with
  | nil => exact h
  | cons value rest ih =>
    have hmoved : Settled given issued
        { b with
          machine :=
            Machine.moveElements
              { b.machine with memory := b.machine.memory.write register value } index 1 } := by
      have hwritten : Settled given issued
          { b with
            machine := { b.machine with memory := b.machine.memory.write register value } } :=
        h.undisturbed ⟨rfl, rfl, fun _ => rfl, fun _ => rfl⟩
      exact hwritten.drift (Machine.drift_moveElements _ index 1)
    unfold Bench.arriveBytes
    dsimp only
    generalize Machine.moveElements _ index 1 = machine at hmoved ⊢
    split
    · have hfinished : Settled given issued { b with machine := (machine.finish index).2 } :=
        hmoved.drift (machine.drift_finish index)
      generalize machine.finish index = r at hfinished ⊢
      obtain ⟨event, machine'⟩ := r
      refine ih ?_
      split
      · next o _ ho =>
        split
        · exact hfinished.interrupt ho _
        · exact hfinished
      · exact hfinished
    · exact ih hmoved

end Settled

/-- Whatever is done to a controller, it goes on within the chain that it is in. -/
theorem ControllerCommand.drift (m : Machine) (index : Nat) (command : ControllerCommand) :
    Machine.Drift index m (command.apply m index).2 := by
  cases command with
  | moveElements count => exact m.drift_moveElements index count
  | finish => exact m.drift_finish index
  | run patience => exact m.drift_runWithin index patience
  | pendingPolls | unstable | race | countOverride =>
    apply Machine.Undisturbed.drift
    exact Machine.Undisturbed.setController m rfl rfl

namespace Settled

/-- **A command to an object** leaves the streams of the bench in order. -/
theorem objectStep (h : b.Settled given issued) (i : Nat) (command : ObjectCommand) :
    (b.objectStep i command).2.Settled given issued := by
  unfold Bench.objectStep
  cases ho : b.object? i with
  | none => exact h
  | some o =>
    have hseated {s : Stream} (hs : o.ownStream? = some s) : s.Seated b.machine :=
      (Tenancy.housed h _ _ ((tenants_object ho).trans hs)).seated
    dsimp only
    split
    · exact h.drift (ControllerCommand.drift ..)
    · exact h.service ho _
    · exact h.dropObject i
    · exact h.letGo i
    · next c s label =>
      exact h.tendObject ho rfl (c.tends s label _ (hseated rfl)).2 rfl
    · exact h.windowStep ho _ _ _
    · next c p =>
      exact h.tendObject ho rfl (c.tends p i _ (hseated rfl)).2 rfl
    · next c p =>
      exact h.tendObject ho rfl (c.tends p i _ (hseated rfl)).2 rfl
    · exact h.arriveBytes _ _ _ _
    · cases hs : b.slot? i with
      | none => exact h
      | some s => exact h.slotStep hs ho _
    · exact h

end Settled

/-! ## Making objects -/

/-- The streams after a place was added. -/
theorem tenants_push (b : Bench) (machine : Machine) (o : Option Object) {slot : Option Slot}
    (hslot : slot.bind Slot.stream? = none) :
    Bench.tenants { b with machine, objects := b.objects.push o, slots := b.slots.push slot } =
      b.tenants.set (.object b.objects.size) (o.bind Object.ownStream?) := by
  funext x
  cases x with
  | object j =>
    show ((b.objects.push o).getD j none).bind _ = _
    rw [Array.getD_eq_getD_getElem?, Array.getElem?_push]
    by_cases hj : j = b.objects.size
    · simp [hj]
    · rw [if_neg hj, Seating.set_of_ne (by simpa using hj), ← Array.getD_eq_getD_getElem?]
      rfl
  | slot j =>
    have hne : Seat.slot j ≠ .object b.objects.size := by simp
    rw [Seating.set_of_ne hne]
    show ((b.slots.push slot).getD j none).bind _ = (b.slots.getD j none).bind _
    rw [Array.getD_eq_getD_getElem?, Array.getElem?_push, Array.getD_eq_getD_getElem?]
    by_cases hj : j = b.slots.size
    · simp [hj, hslot]
    · rw [if_neg hj]

/-- A place is empty before it is made. -/
theorem tenants_size (b : Bench) : b.tenants (.object b.objects.size) = none :=
  tenants_of_le (Nat.le_refl _)

/-- A move may hand out an identity, and leaves the streams in order if it was not the last one
that there is. -/
def Advances (given : List OwnerId) (issued : Nat) (b b' : Bench) : Prop :=
  b'.Settled given issued ∨
    b'.machine.ownership.nextOwner = b.machine.ownership.nextOwner + 1 ∧
      (issued + 1 < UInt32.size → b'.Settled given (issued + 1))

section Making

variable {α : Type} {object : α → Object}

/-- A stream that is made finds its seat at the place that is added. -/
theorem Settled.made (h : b.Settled given issued) {channel : Channel}
    (hwired : ∀ i, channel.hardware = .controller i →
      (b.machine.controller i).number = channel.number) (capacity : Nat) (config : StreamConfig) :
    (∃ e, b.machine.createStream channel capacity config = (.error e, b.machine)) ∨
    ∃ s machine, b.machine.createStream channel capacity config = (.ok s, machine) ∧
      machine.ownership.nextOwner = b.machine.ownership.nextOwner + 1 ∧
      (issued + 1 < UInt32.size →
        Tenancy given (issued + 1) (b.tenants.set (.object b.objects.size) (some s)) machine) := by
  rcases b.machine.createStream_cases channel capacity config with herror | ⟨-, hok⟩
  · exact .inl herror
  · refine .inr ⟨_, _, hok, rfl, fun hissued => ?_⟩
    exact Tenancy.join h hissued hwired hok b.tenants_size

theorem Settled.place_error (h : b.Settled given issued) (e : ConfigError) :
    (b.place (.error e, b.machine) object).2.Settled given issued := by
  show Tenancy given issued (Bench.tenants { b with objects := _, slots := _ }) b.machine
  rw [b.tenants_push b.machine none rfl, Option.bind_none, Seating.set_eq_self b.tenants_size]
  exact h

theorem advances_place {made : α} {machine : Machine} {s : Stream}
    (hs : (object made).ownStream? = some s)
    (hnext : machine.ownership.nextOwner = b.machine.ownership.nextOwner + 1)
    (hjoin : issued + 1 < UInt32.size →
      Tenancy given (issued + 1) (b.tenants.set (.object b.objects.size) (some s)) machine) :
    Advances given issued b (b.place (.ok made, machine) object).2 := by
  refine .inr ⟨hnext, fun hissued => ?_⟩
  show Tenancy given (issued + 1)
    (Bench.tenants { b with machine, objects := _, slots := _ }) machine
  rw [b.tenants_push machine _ rfl, Option.bind_some, hs]
  exact hjoin hissued

theorem Settled.createStream (h : b.Settled given issued) {channel : Channel}
    (hwired : ∀ i, channel.hardware = .controller i →
      (b.machine.controller i).number = channel.number) (capacity : Nat) (config : StreamConfig)
    (label : Nat) :
    Advances given issued b
      (b.place (b.machine.createStream channel capacity config) (.stream · label)).2 := by
  rcases h.made hwired capacity config with ⟨e, herror⟩ | ⟨s, machine, hok, hnext, hjoin⟩
  · rw [herror]
    exact .inl (h.place_error e)
  · rw [hok]
    exact advances_place rfl hnext hjoin

theorem Settled.createTransmitPump (h : b.Settled given issued) {channel : Channel}
    (hwired : ∀ i, channel.hardware = .controller i →
      (b.machine.controller i).number = channel.number) (target requested : Nat) :
    Advances given issued b
      (b.place (b.machine.createTransmitPump channel target requested) .transmit).2 := by
  unfold Machine.createTransmitPump
  cases Ring.resolveCapacity requested with
  | error e => exact .inl (h.place_error e)
  | ok queue =>
    dsimp only
    rcases h.made hwired 1 TransmitPump.config with ⟨e, herror⟩ | ⟨s, machine, hok, hnext, hjoin⟩
    · rw [herror]
      exact .inl (h.place_error e)
    · rw [hok]
      refine advances_place rfl hnext fun hissued => ?_
      exact (hjoin hissued).undisturbed ⟨rfl, rfl, fun _ => rfl, fun _ => rfl⟩

theorem Settled.createReceivePump (h : b.Settled given issued) {channel : Channel}
    (hwired : ∀ i, channel.hardware = .controller i →
      (b.machine.controller i).number = channel.number) (half source requested : Nat) :
    Advances given issued b
      (b.place (b.machine.createReceivePump channel half source requested) .receive).2 := by
  unfold Machine.createReceivePump
  cases ByteQueue.allocate requested with
  | error e => exact .inl (h.place_error e)
  | ok queue =>
    dsimp only
    cases ReceivePump.admissible half with
    | error e => exact .inl (h.place_error e)
    | ok u =>
      dsimp only
      rcases h.made hwired 2 ReceivePump.config with ⟨e, herror⟩ | ⟨s, machine, hok, hnext, hjoin⟩
      · rw [herror]
        exact .inl (h.place_error e)
      · rw [hok]
        refine advances_place rfl hnext fun hissued => ?_
        -- the callback that the pump sets up beforehand is the stream's own affair
        have hrecast : s.Recast { s with callback := some .ignore } :=
          Stream.recast_of_pool rfl rfl rfl rfl
        have hmade := hjoin hissued
        have hseated := (hmade.housed _ s Seating.set_self).seated
        have htended := hmade.tend Seating.set_self (hrecast.tended hseated)
        rw [Seating.set_set] at htended
        exact htended.undisturbed ⟨rfl, rfl, fun _ => rfl, fun _ => rfl⟩

/-- **Making an object** leaves the streams of the bench in order. -/
theorem Settled.create (h : b.Settled given issued) (spec : ObjectSpec) :
    Advances given issued b (b.create spec).2 := by
  have hwired (controller i : Nat) (hi : (b.channelOf controller).hardware = .controller i) :
      (b.machine.controller i).number = (b.channelOf controller).number := by
    obtain rfl : controller = i := Hardware.controller.inj hi
    rfl
  cases spec with
  | stream controller capacity config => exact h.createStream (hwired controller) capacity config _
  | window number capacity config =>
    have hwindow : Settled given issued
        { b with machine := { b.machine with windows := b.machine.windows.push {} } } :=
      h.undisturbed ⟨rfl, rfl, fun _ => rfl, fun _ => rfl⟩
    have hnone (i : Nat) : Hardware.window b.machine.windows.size = .controller i →
        (b.machine.controller i).number = number := by simp
    exact hwindow.createStream hnone capacity config _
  | transmit controller target queue => exact h.createTransmitPump (hwired controller) target queue
  | receive controller half source queue =>
    exact h.createReceivePump (hwired controller) half source queue
  | slot controller =>
    left
    show Tenancy given issued (Bench.tenants { b with objects := _, slots := _ }) b.machine
    rw [b.tenants_push b.machine (some (.slot controller)) rfl]
    exact (Seating.set_eq_self b.tenants_size).symm ▸ h

end Making

/-! ## Commands -/

/-- **Every command** but the one that hands out an identity leaves the streams of the bench in
order, if claims are made and given up with identities that were given to the tester. -/
theorem Settled.step (h : b.Settled given issued) {command : Command}
    (hne : command ≠ .allocateOwner)
    (hbind : ∀ channel k o, command = .bind channel k ∨ command = .release channel k →
      b.owners[k]? = some o → o ∈ given) :
    (b.step command).2.Settled given issued := by
  cases command with
  | object i command => exact h.objectStep i command
  | allocateOwner => exact absurd rfl hne
  | captureOwner channel =>
    unfold Bench.step
    dsimp only
    cases b.machine.ownership.owner channel <;> exact h
  | bind channel k =>
    unfold Bench.step
    dsimp only
    cases ho : b.owners[k]? with
    | none => exact h
    | some o => exact Tenancy.bind_given h channel (hbind channel k o (.inl rfl) ho)
  | release channel k =>
    unfold Bench.step
    dsimp only
    cases ho : b.owners[k]? with
    | none => exact h
    | some o => exact Tenancy.release_given h channel (hbind channel k o (.inr rfl) ho)
  | owner channel => exact h
  | isBound channel => exact h
  | register channel handler =>
    unfold Bench.step
    dsimp only
    split <;> exact h
  | unregister channel => exact h
  | dispatch channel event => exact h.dispatch channel event
  | poke address data => exact h.undisturbed ⟨rfl, rfl, fun _ => rfl, fun _ => rfl⟩
  | peek address length => exact h

theorem Settled.allocateOwner (h : b.Settled given issued) (hissued : issued + 1 < UInt32.size) :
    (b.step .allocateOwner).2.Settled (b.machine.ownership.allocate.1 :: given) (issued + 1) :=
  Tenancy.give h hissued

end Bench

end ScatterGather
