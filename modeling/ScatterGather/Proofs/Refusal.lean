import ScatterGather.Proofs.Backlog
import ScatterGather.Proofs.Claiming
import ScatterGather.Proofs.PumpCoherence

/-!
# ScatterGather.Proofs.Refusal — a call that fails changes nothing

A block is checked before anything is done with it, and an ended chain is discarded before the pool
is asked for a slot. The pool then has one, so a call of `append` either succeeds (`Stream.Admits`)
or leaves everything as it was, the ended chain included. `configure` and `enable` change nothing
either when they fail, but for the state of a stream whose channel is held by another owner
(`Stream.Intact`).

A receive pump gives up its channel and forgets its chain before it claims the channel anew. If the
claim is refused it is left without its channel, and the next start comes to what it would come to
on a pump that has just been made around the same queue (`ReceivePump.Intact`).

As in `Coherence`, a stream or pump may have been answered by anyone (`Stream.Reached`,
`ReceivePump.Reached`); what a call that fails does to a machine is said of every machine.
-/

namespace ScatterGather

open Script

/-! ## Claims that are refused -/

/-- The only ground for refusing a channel that exists is that another owner holds it. -/
theorem Ownership.held_of_refused {t : Ownership} {channel : Nat} {owner : OwnerId} {e : Error}
    (hc : channel < maxChannels) (h : (t.bind channel owner).1 = .error e) :
    e = .dma .channelBusy ∧ ∃ other ≠ owner, t.owner channel = some other := by
  unfold bind at h
  rw [dif_pos hc] at h
  have hread : t.owner channel = t.owners[channel] := dif_pos hc
  cases hholder : t.owners[channel] with
  | none =>
    rw [hholder] at h
    cases h
  | some other =>
    rw [hholder] at h hread
    dsimp only at h
    split at h
    · cases h
    · next hother => exact ⟨(Except.error.inj h).symm, other, hother, hread⟩

namespace Machine

variable {m : Machine} {hw : Hardware}

/-- A refusal goes on record, and nothing else is done. -/
theorem bind_of_refused {channel : Nat} {owner : OwnerId} {e : Error} (hc : channel < maxChannels)
    (h : (m.bind channel owner).1 = .error e) :
    m.bind channel owner = (.error (.dma .channelBusy), m.record (.alreadyBound channel)) := by
  have hresult : (m.ownership.bind channel owner).1 = .error e := h
  obtain ⟨rfl, -⟩ := Ownership.held_of_refused hc hresult
  have hsame := Ownership.bind_refused hresult
  unfold bind
  rw [← Prod.eta (m.ownership.bind channel owner), hresult, hsame]
  rfl

/-- Code that touches descriptors only changes nothing but the table of descriptors. -/
theorem exec_tabular_table {α : Type} {Q : α → Prop} {x : DriverScript α}
    (hx : x.Uses Access.Tabular Q) (hw : Hardware) (m : Machine) :
    ∃ value table, Q value ∧ m.exec hw x = (value, { m with table }) := by
  have hvalue : Q (m.exec hw x).1 := hx.yields.run (answer hw) m
  have hexec := m.exec_tabular hx hw (m.scene 0) rfl
  rw [hexec] at hvalue
  exact ⟨_, _, hvalue, hexec⟩

end Machine

/-! ## Streams -/

/-- A pool that is not full takes a block. -/
theorem Pool.tabular_push_room {p : Pool} (hroom : p.isFull = false) (source destination : Nat)
    (control : UInt32) (closeLoop : Bool) :
    (p.push source destination control closeLoop).Uses Access.Tabular
      (· = some { p with queued := p.queued + 1 }) := by
  unfold push
  rw [if_neg (by simp [hroom])]
  iterate 4 refine .bind (uses_perform (.store ..) trivial) fun _ _ => ?_
  refine .bind (.when _ (uses_perform (.store ..) trivial)) fun _ _ => ?_
  exact .bind (.when _ (uses_perform (.store ..) trivial)) fun _ _ => .done rfl

namespace Stream

variable {s : Stream} {m : Machine} {hw : Hardware} {destination source size : Nat}

/-- A stream can take a block: length and addresses go by the width, and a slot is free, if only
because the chain has ended and will be discarded. -/
structure Admits (s : Stream) (destination source size : Nat) : Prop where
  size_pos : 0 < size
  size_dvd : s.config.settings.width.bytes ∣ size
  destination_dvd : s.config.settings.width.bytes ∣ destination
  source_dvd : s.config.settings.width.bytes ∣ source
  elements_le : size / s.config.settings.width.bytes ≤ maxTransfer
  room : s.pool.queued < s.pool.capacity ∨ s.bound = false ∧ s.state.isFinal = true

theorem Admits.checkBlock_eq (h : s.Admits destination source size) :
    s.checkBlock destination source size = .ok (size / s.config.settings.width.bytes) := by
  have hlength : ¬(size = 0 ∨ size % s.config.settings.width.bytes ≠ 0) :=
    not_or.mpr ⟨Nat.ne_of_gt h.size_pos, not_not_intro (Nat.mod_eq_zero_of_dvd h.size_dvd)⟩
  have haligned : ¬(destination % s.config.settings.width.bytes ≠ 0 ∨
      source % s.config.settings.width.bytes ≠ 0) :=
    not_or.mpr ⟨not_not_intro (Nat.mod_eq_zero_of_dvd h.destination_dvd),
      not_not_intro (Nat.mod_eq_zero_of_dvd h.source_dvd)⟩
  unfold checkBlock
  rw [if_neg hlength, if_neg haligned, if_neg (Nat.not_lt.mpr h.elements_le)]

/-- Only a slot can still be missing for a block that passes its check. -/
theorem admits_of_checkBlock {elements : Nat}
    (hcheck : s.checkBlock destination source size = .ok elements)
    (hroom : s.pool.queued < s.pool.capacity ∨ s.bound = false ∧ s.state.isFinal = true) :
    s.Admits destination source size := by
  unfold checkBlock at hcheck
  by_cases hlength : size = 0 ∨ size % s.config.settings.width.bytes ≠ 0
  · cases (if_pos hlength).symm.trans hcheck
  · rw [if_neg hlength] at hcheck
    by_cases haligned : destination % s.config.settings.width.bytes ≠ 0 ∨
        source % s.config.settings.width.bytes ≠ 0
    · cases (if_pos haligned).symm.trans hcheck
    · rw [if_neg haligned] at hcheck
      split at hcheck
      · cases hcheck
      · next hmax =>
        simp only [not_or, Decidable.not_not] at hlength haligned
        exact
          { size_pos := Nat.pos_of_ne_zero hlength.1
            size_dvd := Nat.dvd_of_mod_eq_zero hlength.2
            destination_dvd := Nat.dvd_of_mod_eq_zero haligned.1
            source_dvd := Nat.dvd_of_mod_eq_zero haligned.2
            elements_le := Nat.not_lt.mp hmax
            room := hroom }

/-- A chain that was discarded leaves every slot free. -/
theorem Coherent.isFull_discardFinished (h : s.Coherent) :
    s.discardFinished.pool.isFull = false ↔
      s.pool.queued < s.pool.capacity ∨ s.bound = false ∧ s.state.isFinal = true := by
  have hcap := h.capacity_pos
  have hle := h.queued_le
  unfold Stream.discardFinished Pool.isFull
  split
  · next hended =>
    simp only [Bool.and_eq_true, Bool.not_eq_true'] at hended
    simp [hended, Pool.reset, Nat.ne_of_lt hcap]
  · next hgoing =>
    simp only [Bool.and_eq_true, Bool.not_eq_true'] at hgoing
    simp only [decide_eq_false_iff_not, hgoing, or_false]
    omega

/-- Where no slot is free nothing was discarded. -/
theorem Coherent.discardFinished_of_full (h : s.Coherent)
    (hfull : s.discardFinished.pool.isFull = true) : s.discardFinished = s := by
  have hroom : ¬(s.bound = false ∧ s.state.isFinal = true) := fun hended =>
    nomatch (h.isFull_discardFinished.mpr (.inr hended)).symm.trans hfull
  unfold Stream.discardFinished
  exact if_neg (by simpa using hroom)

/-- **A block that cannot be taken** is turned away without a single access. -/
theorem Coherent.append_refused (h : s.Coherent) (hno : ¬s.Admits destination source size) :
    ∃ e, s.append destination source size = pure (.error e, s) := by
  unfold Stream.append
  cases hcheck : s.checkBlock destination source size with
  | error e => exact ⟨e, rfl⟩
  | ok elements =>
    have hfull : s.discardFinished.pool.isFull = true := by
      refine eq_true_of_ne_false fun hroom => hno ?_
      exact admits_of_checkBlock hcheck (h.isFull_discardFinished.mp hroom)
    have hsame := h.discardFinished_of_full hfull
    refine ⟨.poolFull, ?_⟩
    dsimp only
    rw [hsame] at hfull ⊢
    unfold Pool.push
    rw [if_pos hfull]
    rfl

/-- A block that can be taken is taken. Beside descriptors it takes only the readings that tell
whether it came too late. -/
theorem Coherent.uses_append (h : s.Coherent) (hyes : s.Admits destination source size)
    {P : Access → Prop} {Late : Bool → Prop} (htab : ∀ a : Access, a.Tabular → P a)
    (hlate : s.discardFinished.linkedTooLate.Uses P Late) :
    (s.append destination source size).Uses P fun r =>
      ∃ late, Late late ∧ r = (.ok (), s.discardFinished.appended late) := by
  unfold Stream.append
  rw [hyes.checkBlock_eq]
  have hroom := h.isFull_discardFinished.mpr hyes.room
  refine .bind ((Pool.tabular_push_room hroom ..).mono htab fun _ h => h) fun pushed hpushed => ?_
  subst hpushed
  refine hlate.bind fun late hl => ?_
  refine .bind (.when _ ((tabular_setInterrupt ..).mono htab fun _ h => h)) fun _ _ => ?_
  exact .done ⟨late, hl, rfl⟩

theorem Coherent.yields_append (h : s.Coherent) (hyes : s.Admits destination source size) :
    (s.append destination source size).Yields fun r => r.1 = .ok () :=
  (h.uses_append hyes (fun _ _ => trivial) (yields_any _)).mono (fun _ h => h)
    fun _ ⟨_, _, hr⟩ => congrArg Prod.fst hr

/-- A stream that does not hold its channel only writes the block down. -/
theorem Coherent.exec_append_unbound (h : s.Coherent) (hyes : s.Admits destination source size)
    (hb : s.bound = false) (hw : Hardware) (m : Machine) :
    ∃ table, m.exec hw (s.append destination source size) =
      ((.ok (), s.discardFinished.appended false), { m with table }) := by
  have hlate : s.discardFinished.linkedTooLate.Uses Access.Tabular (· = false) := by
    unfold linkedTooLate
    rw [bound_discardFinished, hb]
    exact .done rfl
  obtain ⟨value, table, ⟨late, rfl, rfl⟩, hexec⟩ :=
    Machine.exec_tabular_table (h.uses_append hyes (fun _ h => h) hlate) hw m
  exact ⟨table, hexec⟩

theorem configure_refused {settings : TransferSettings} {e : ConfigError}
    (h : (s.configure settings).1 = .error e) : (s.configure settings).2 = s := by
  unfold configure at h ⊢
  split
  · rfl
  · next hb =>
    rw [if_neg hb] at h
    split
    · rfl
    · next hvalid =>
      rw [hvalid] at h
      cases h

/-- Another owner holds the channel of the stream. -/
def Barred (s : Stream) (m : Machine) : Prop :=
  ∃ other ≠ s.owner, m.ownership.owner s.channel.number = some other

/-- Blocks are there and the channel is not held: only another holder can be in the way. -/
theorem exec_enable_barred (hc : s.channel.number < maxChannels) (hb : s.bound = false)
    (hq : s.pool.queued ≠ 0) {e : Error} (h : (m.exec hw s.enable).1.1 = .error e) :
    e = .dma .channelBusy ∧ s.Barred m ∧ m.exec hw s.enable =
      ((.error e, { s with state := .error }), m.record (.alreadyBound s.channel.number)) := by
  rw [exec_enable_machine hb hq] at h ⊢
  rcases hbind : m.bind s.channel.number s.owner with ⟨granted, m'⟩
  rw [hbind] at h
  cases granted with
  | ok u => cases h
  | error e' =>
    have hresult : (m.bind s.channel.number s.owner).1 = .error e' := congrArg Prod.fst hbind
    obtain ⟨he, rfl⟩ := Prod.mk.inj (hbind.symm.trans (Machine.bind_of_refused hc hresult))
    obtain rfl := Except.error.inj he
    obtain rfl := Except.error.inj h
    exact ⟨rfl, (Ownership.held_of_refused hc hresult).2, rfl⟩

theorem exec_enable_refused (hc : s.channel.number < maxChannels) {e : Error}
    (h : (m.exec hw s.enable).1.1 = .error e) :
    e = .io .invalidState ∧ (s.bound = true ∨ s.pool.queued = 0) ∧
      m.exec hw s.enable = ((.error e, s), m) ∨
    e = .dma .channelBusy ∧ s.Barred m ∧ m.exec hw s.enable =
      ((.error e, { s with state := .error }), m.record (.alreadyBound s.channel.number)) := by
  by_cases hno : s.bound = true ∨ s.pool.queued = 0
  · have hexec : m.exec hw s.enable = ((.error (.io .invalidState), s), m) := by
      unfold enable
      rw [if_pos (by simpa [Pool.isEmpty] using hno)]
      rfl
    rw [hexec] at h ⊢
    obtain rfl := Except.error.inj h
    exact .inl ⟨rfl, hno, rfl⟩
  · obtain ⟨hb, hq⟩ := not_or.mp hno
    exact .inr (exec_enable_barred hc (Bool.eq_false_iff.mpr hb) hq h)

/-- What calls that fail leave behind, on any machine. -/
structure Intact (s : Stream) : Prop where
  /-- A block is taken if and only if it can be. -/
  admits : ∀ (m : Machine) destination source size,
    (m.exec s.channel.hardware (s.append destination source size)).1.1 = .ok () ↔
      s.Admits destination source size
  append : ∀ (m : Machine) destination source size e,
    (m.exec s.channel.hardware (s.append destination source size)).1.1 = .error e →
      m.exec s.channel.hardware (s.append destination source size) = ((.error e, s), m)
  configure : ∀ settings e,
    (s.configure settings).1 = .error e → (s.configure settings).2 = s
  /-- Only a channel that another owner holds leaves the stream in another state, and a line in the
  log. -/
  enable : ∀ (m : Machine) e, (m.exec s.channel.hardware s.enable).1.1 = .error e →
    e = .io .invalidState ∧ (s.bound = true ∨ s.pool.queued = 0) ∧
      m.exec s.channel.hardware s.enable = ((.error e, s), m) ∨
    e = .dma .channelBusy ∧ s.Barred m ∧ m.exec s.channel.hardware s.enable =
      ((.error e, { s with state := .error }), m.record (.alreadyBound s.channel.number))

theorem Coherent.intact (h : s.Coherent) (hc : s.channel.number < maxChannels) : s.Intact where
  admits m destination source size := by
    by_cases hyes : s.Admits destination source size
    · exact iff_of_true ((h.yields_append hyes).run _ m) hyes
    · obtain ⟨e, hrefused⟩ := h.append_refused hyes
      rw [hrefused]
      exact iff_of_false nofun hyes
  append m destination source size e he := by
    by_cases hyes : s.Admits destination source size
    · have hok := (h.yields_append hyes).run (Machine.answer s.channel.hardware) m
      cases hok.symm.trans he
    · obtain ⟨e', hrefused⟩ := h.append_refused hyes
      rw [hrefused] at he ⊢
      obtain rfl := Except.error.inj he
      rfl
  configure settings e := configure_refused
  enable m e := exec_enable_refused hc

/-! ### Streams in use -/

/-- No command moves a stream to another channel. -/
theorem yields_channel_script (s : Stream) (label : Nat) (command : Bench.StreamCommand) :
    (command.script s label).Yields fun r => r.2.channel = s.channel := by
  cases command with
  | append destination source size =>
    exact (yields_kept_append s ..).bind fun _ h => yields_done h.channel
  | enable => exact (yields_kept_enable s).bind fun _ h => yields_done h.channel
  | disable => exact (yields_kept_disable s).bind fun _ h => yields_done h.channel
  | clear => exact (yields_kept_clear s).bind fun _ h => yields_done h.channel
  | configure settings => exact yields_done (s.same_configure settings).channel
  | callback on =>
    have hset (callback : Option Callback) :
        (s.setCallback callback).Yields fun s' => s'.channel = s.channel :=
      yields_bind fun _ => yields_done rfl
    exact (hset _).bind fun _ h => yields_done h
  | interrupt event => exact (yields_kept_onInterrupt s event).bind fun _ h => yields_done h.channel
  | residue => exact yields_bind fun _ => yields_done rfl
  | queued => exact yields_bind fun _ => yields_done rfl
  | info => exact yields_done rfl
  | text => exact yields_done rfl

/-- A stream that was made, with any callback, and used: it was given commands, whoever answered its
accesses, and was moved to other descriptors while it did not hold its channel. -/
inductive Reached : Stream → Prop
  | made {m : Machine} {channel : Channel} {capacity : Nat} {config : StreamConfig} {s : Stream}
      (hcapacity : 0 < capacity) (h : (m.createStream channel capacity config).1 = .ok s)
      (callback : Option Callback) : Reached { s with callback }
  | served {s : Stream} (h : Reached s) {σ : Type} (handle : (a : Access) → σ → a.Answer × σ)
      (t : σ) (label : Nat) (command : Bench.StreamCommand) :
      Reached ((command.script s label).run handle t).1.2
  | moved {s : Stream} (h : Reached s) (hb : s.bound = false) (m : Machine) :
      Reached (m.relocate s).1

theorem Reached.coherent (h : s.Reached) : s.Coherent := by
  induction h with
  | made hcapacity h callback => exact { coherent_made hcapacity h with }
  | served _ handle t label command ih => exact (ih.script label command).run handle t
  | moved _ hb m ih => exact { ih with }

theorem number_lt_of_made {channel : Channel} {capacity : Nat} {config : StreamConfig}
    (h : (m.createStream channel capacity config).1 = .ok s) :
    s.channel.number < maxChannels := by
  rcases m.createStream_cases channel capacity config with ⟨e, herror⟩ | ⟨hlt, hok⟩
  · rw [herror] at h
    cases h
  · rw [hok] at h
    obtain rfl := Except.ok.inj h
    exact hlt

theorem Reached.number_lt (h : s.Reached) : s.channel.number < maxChannels := by
  induction h with
  | made _ h callback =>
    have hlt := number_lt_of_made h
    exact hlt
  | @served s _ σ handle t label command ih =>
    have hchannel := (yields_channel_script s label command).run handle t
    rwa [hchannel]
  | moved _ hb m ih => exact ih

theorem Reached.intact (h : s.Reached) : s.Intact :=
  h.coherent.intact h.number_lt

/-- A stream that is served is one in use. -/
theorem Reached.serve (h : s.Reached) {σ : Type} (handle : (a : Access) → σ → a.Answer × σ)
    (commands : List (Nat × Bench.StreamCommand)) (t : σ) :
    (s.serve handle commands t).1.Reached := by
  induction commands generalizing s t with
  | nil => exact h
  | cons command rest ih => exact ih (h.served handle t command.1 command.2) _

/-! ### Giving up the channel -/

/-- A machine on which a stream has given up its channel. -/
def givenUp (s : Stream) (m : Machine) : Machine :=
  (m.exec s.channel.hardware s.releaseIfBound).2

/-- No controller is started by that. -/
theorem starts_givenUp (s : Stream) (m : Machine) (i : Nat) :
    ((s.givenUp m).controller i).starts = (m.controller i).starts := by
  unfold givenUp releaseIfBound
  split
  · show ((m.halt s.channel.hardware).controller i).starts = _
    cases s.channel.hardware with
    | window j => rfl
    | controller j =>
      show ((m.setController j ((m.controller j).halt m.table)).controller i).starts = _
      rw [Machine.controller_setController]
      split
      · next hj =>
        rw [hj.1]
        rfl
      · rfl
  · rfl

/-- An unbound stream forgets its chain without a single access. -/
theorem clear_unbound (hb : s.bound = false) :
    s.clear = pure { s with pool := s.pool.reset, state := .idle } := by
  unfold clear releaseIfBound
  rw [if_neg (by simp [hb])]
  rfl

end Stream

/-! ## Receive pumps -/

namespace ReceivePump

variable {p p' : ReceivePump}

/-- What every command keeps of a pump. -/
structure Kept (p p' : ReceivePump) : Prop where
  stream : p.stream.Kept p'.stream
  half : p'.half = p.half

theorem yields_kept_start (p : ReceivePump) : p.start.Yields fun r => p.Kept r.2 := by
  refine (Stream.yields_kept_clear _).bind fun stream h => ?_
  refine (Stream.yields_kept_append ..).bind fun ⟨first, stream⟩ h₁ => ?_
  cases first with
  | error e => exact yields_done ⟨h.trans h₁, rfl⟩
  | ok _ =>
    refine (Stream.yields_kept_append ..).bind fun ⟨second, stream⟩ h₂ => ?_
    cases second with
    | error e => exact yields_done ⟨(h.trans h₁).trans h₂, rfl⟩
    | ok _ =>
      refine (Stream.yields_kept_enable _).bind fun ⟨enabled, stream⟩ h₃ => ?_
      exact yields_done ⟨((h.trans h₁).trans h₂).trans h₃, rfl⟩

theorem yields_kept_pushStaged (p : ReceivePump) (upTo : Nat) :
    (p.pushStaged upTo).Yields fun r => p.Kept r.2 := by
  unfold pushStaged
  split
  · exact yields_done ⟨.refl _, rfl⟩
  · exact yields_bind fun data => yields_bind fun _ => yields_done ⟨.refl _, rfl⟩

theorem yields_kept_onInterrupt (p : ReceivePump) (event : TransferEvent) :
    (p.onInterrupt event).Yields fun r => p.Kept r.2 := by
  refine (Stream.yields_kept_onInterrupt _ event).bind fun ⟨result, stream⟩ h => ?_
  cases result with
  | none => exact yields_done ⟨h, rfl⟩
  | some status =>
    dsimp only
    split
    · refine yields_bind fun half => (yields_kept_pushStaged _ _).bind fun ⟨_, p'⟩ h' => ?_
      exact yields_done ⟨h.trans h'.stream, h'.half⟩
    · exact yields_done ⟨h, rfl⟩

theorem yields_kept_onIdle (p : ReceivePump) : p.onIdle.Yields fun r => p.Kept r.2 := by
  have hkept : p.Kept p := ⟨.refl _, rfl⟩
  unfold onIdle
  split
  · exact yields_done hkept
  · refine yields_bind fun half => yields_bind fun residue => ?_
    cases residue with
    | error e => exact yields_done hkept
    | ok residue =>
      refine yields_bind fun again => ?_
      split
      · exact yields_done hkept
      · exact (yields_kept_pushStaged p _).bind fun _ h => yields_done ⟨h.stream, h.half⟩

theorem yields_kept_script (p : ReceivePump) (label : Nat) (command : Bench.ReceiveCommand) :
    (command.script p label).Yields fun r => p.Kept r.2 := by
  have hkept : p.Kept p := ⟨.refl _, rfl⟩
  cases command with
  | start => exact (yields_kept_start p).bind fun _ h => yields_done h
  | stop =>
    have hstop : p.stop.Yields p.Kept :=
      (Stream.yields_kept_disable _).bind fun _ h => yields_done ⟨h, rfl⟩
    exact hstop.bind fun _ h => yields_done h
  | idle => exact (yields_kept_onIdle p).bind fun _ h => yields_done h
  | read buffer => exact yields_done ⟨.refl _, rfl⟩
  | interrupt event => exact (yields_kept_onInterrupt p event).bind fun _ h => yields_done h
  | callback on => exact yields_done ⟨.refl _, rfl⟩
  | peek offset => exact yields_done hkept
  | residue => exact yields_bind fun _ => yields_done hkept
  | info => exact yields_done hkept

/-! ### Pumps in use -/

/-- A pump that was made, over a queue that may hold bytes already, and given commands, whoever
answered its accesses. -/
inductive Reached : ReceivePump → Prop
  | made {m : Machine} {channel : Channel} {half source requested : Nat} {p : ReceivePump}
      {queue : ByteQueue} (h : (m.createReceivePump channel half source requested).1 = .ok p)
      (hqueue : queue.Valid) : Reached { p with queue }
  | served {p : ReceivePump} (h : Reached p) {σ : Type}
      (handle : (a : Access) → σ → a.Answer × σ) (t : σ) (label : Nat)
      (command : Bench.ReceiveCommand) : Reached ((command.script p label).run handle t).1.2

/-- How a pump was made, which no command changes. -/
structure Built (p : ReceivePump) : Prop where
  coherent : p.Coherent
  number_lt : p.stream.channel.number < maxChannels
  pair : p.stream.pool.capacity = 2
  config : p.stream.config = ReceivePump.config
  callback : p.stream.callback = some .ignore
  half_le : p.half ≤ maxTransfer

/-- What a pump is when it is made. -/
theorem made_eq {m : Machine} {channel : Channel} {half source requested : Nat}
    (hmade : (m.createReceivePump channel half source requested).1 = .ok p) :
    channel.number < maxChannels ∧ half ≤ maxTransfer ∧ ∃ owner base staging queue,
      p =
        { stream :=
            { Stream.idle channel owner base 2 ReceivePump.config with callback := some .ignore }
          queue, half, staging, source } := by
  unfold Machine.createReceivePump at hmade
  split at hmade
  · cases hmade
  · split at hmade
    · cases hmade
    · next hhalf =>
      rcases m.createStream_cases channel 2 ReceivePump.config with ⟨e, herror⟩ | ⟨hlt, hok⟩
      · rw [herror] at hmade
        cases hmade
      · rw [hok] at hmade
        obtain rfl := Except.ok.inj hmade
        exact ⟨hlt, (bounds_of_admissible hhalf).2, _, _, _, _, rfl⟩

theorem built_made {m : Machine} {channel : Channel} {half source requested : Nat}
    (hmade : (m.createReceivePump channel half source requested).1 = .ok p) {queue : ByteQueue}
    (hqueue : queue.Valid) : Built { p with queue } := by
  have hcoherent := coherent_made hmade hqueue
  obtain ⟨hlt, hhalf, _, _, _, _, rfl⟩ := made_eq hmade
  exact ⟨hcoherent, hlt, rfl, rfl, rfl, hhalf⟩

theorem Built.kept (h : p.Built) (hkept : p.Kept p') (hc : p'.Coherent) : p'.Built where
  coherent := hc
  number_lt := by
    rw [hkept.stream.channel]
    exact h.number_lt
  pair := hkept.stream.capacity.trans h.pair
  config := hkept.stream.config.trans h.config
  callback := hkept.stream.callback.trans h.callback
  half_le := by
    rw [hkept.half]
    exact h.half_le

theorem Built.start (h : p.Built) {σ : Type} (handle : (a : Access) → σ → a.Answer × σ) (t : σ) :
    (p.start.run handle t).1.2.Built :=
  h.kept ((yields_kept_start p).run handle t) (h.coherent.start.run handle t)

theorem Reached.built (h : p.Reached) : p.Built := by
  induction h with
  | made h hqueue => exact built_made h hqueue
  | served _ handle t label command ih =>
    exact ih.kept ((yields_kept_script _ label command).run handle t)
      ((ih.coherent.script label command).run handle t)

/-! ### Starting -/

/-- The pump that would have just been made in place of this one, with the queue and the callback
that this one has. -/
def fresh (p : ReceivePump) : ReceivePump :=
  { p with
    stream :=
      { Stream.idle p.stream.channel p.stream.owner p.stream.pool.base 2 ReceivePump.config with
        callback := some .ignore }
    position := 0 }

/-- A pump that has just been made is fresh. -/
theorem fresh_made {m : Machine} {channel : Channel} {half source requested : Nat}
    (hmade : (m.createReceivePump channel half source requested).1 = .ok p) (queue : ByteQueue)
    (callback : Option Nat) : fresh { p with queue, callback } = { p with queue, callback } := by
  obtain ⟨-, -, _, _, _, _, rfl⟩ := made_eq hmade
  rfl

/-- What is left of the stream when the channel is given up and the chain forgotten. -/
theorem Built.cleared_eq (h : p.Built) :
    { p.stream with
      pool := p.stream.pool.reset, bound := false, stalled := none, state := .idle } =
      p.fresh.stream := by
  obtain ⟨hcoherent, -, hpair, hconfig, hcallback, -⟩ := h
  have htemplate := hcoherent.stream.template
  obtain ⟨⟨channel, owner, ⟨base, capacity, head, queued⟩, config, template, state, bound, stalled,
    callback⟩, queue, half, staging, source, position, told⟩ := p
  dsimp only at hpair hconfig hcallback htemplate
  subst hpair hconfig hcallback htemplate
  rfl

/-- **A pump that does not hold its channel starts like a new one.** -/
theorem Built.start_eq (h : p.Built) (hb : p.stream.bound = false) : p.start = p.fresh.start := by
  have hcleared : p.stream.clear = pure p.fresh.stream := by
    rw [Stream.clear_unbound hb, ← h.cleared_eq, ← hb, ← h.coherent.stream.unbound hb]
  have hfresh : p.fresh.stream.clear = pure p.fresh.stream := Stream.clear_unbound rfl
  unfold ReceivePump.start
  rw [hcleared, hfresh]
  rfl

/-- Both halves of the staging area fit a block. -/
theorem Built.admits (h : p.Built) {s : Stream} (hconfig : s.config = ReceivePump.config)
    (hroom : s.pool.queued < s.pool.capacity) (destination : Nat) :
    s.Admits destination p.source p.half := by
  have hwidth : s.config.settings.width.bytes = 1 := by
    rw [hconfig]
    rfl
  exact
    { size_pos := h.coherent.half_pos
      size_dvd := hwidth ▸ Nat.one_dvd _
      destination_dvd := hwidth ▸ Nat.one_dvd _
      source_dvd := hwidth ▸ Nat.one_dvd _
      elements_le := by
        rw [hwidth, Nat.div_one]
        exact h.half_le
      room := .inl hroom }

/-- The chain of both halves, before the channel is claimed. -/
def loaded (p : ReceivePump) : Stream :=
  { p.fresh.stream with pool := { p.fresh.stream.pool with queued := 2 }, state := .ready }

theorem Built.exec_clear (h : p.Built) (m : Machine) (hw : Hardware) :
    m.exec hw p.stream.clear = (p.fresh.stream, (m.exec hw p.stream.releaseIfBound).2) := by
  by_cases hb : p.stream.bound = true
  · rw [← h.cleared_eq]
    unfold Stream.clear Stream.releaseIfBound
    rw [if_pos hb]
    rfl
  · have hb := Bool.eq_false_iff.mpr hb
    rw [Stream.clear_unbound hb, ← h.cleared_eq, ← hb, ← h.coherent.stream.unbound hb]
    unfold Stream.releaseIfBound
    rw [if_neg (by simp [hb])]
    rfl

/-- Before it claims the channel a start gives it up, and writes both blocks down. -/
theorem Built.exec_start (h : p.Built) (m : Machine) :
    ∃ table,
      let claimed :=
        { p.stream.givenUp m with table }.exec p.stream.channel.hardware p.loaded.enable
      m.exec p.stream.channel.hardware p.start =
        ((claimed.1.1, { p with stream := claimed.1.2, position := 0 }), claimed.2) := by
  have hclear := h.exec_clear m p.stream.channel.hardware
  have hcleared : p.fresh.stream.Coherent := by
    have hcoherent := h.coherent.stream.clear.run (Machine.answer p.stream.channel.hardware) m
    rwa [show p.stream.clear.run _ m = _ from hclear] at hcoherent
  unfold ReceivePump.start Stream.givenUp
  generalize p.stream.channel.hardware = hw at hclear ⊢
  generalize (m.exec hw p.stream.releaseIfBound).2 = m₁ at hclear ⊢
  -- the first half
  have hfirst := h.admits (s := p.fresh.stream) rfl Nat.two_pos p.staging
  obtain ⟨t₁, hexec₁⟩ := hcleared.exec_append_unbound hfirst rfl hw m₁
  have hone := (hcleared.append p.staging p.source p.half).run (Machine.answer hw) m₁
  rw [show Script.run _ _ m₁ = _ from hexec₁] at hone
  -- the second half
  have hsecond := h.admits (s := p.fresh.stream.discardFinished.appended false) rfl
    Nat.one_lt_two (p.staging + p.half)
  obtain ⟨t₂, hexec₂⟩ := hone.exec_append_unbound hsecond rfl hw { m₁ with table := t₁ }
  refine ⟨t₂, ?_⟩
  refine (Machine.exec_bind m hw p.stream.clear _).trans ?_
  rw [hclear]
  refine (Machine.exec_bind m₁ hw (p.fresh.stream.append ..) _).trans ?_
  rw [hexec₁]
  refine (Machine.exec_bind _ hw (Stream.append ..) _).trans ?_
  rw [hexec₂]
  exact Machine.exec_bind _ hw p.loaded.enable _

/-- What a start leaves that was refused the channel. -/
structure Unstarted (p : ReceivePump) (m : Machine) (p' : ReceivePump) (m' : Machine) : Prop where
  unbound : p'.stream.bound = false
  queue : p'.queue = p.queue
  /-- Beside descriptors and a line in the log, nothing was done but to give up the channel. -/
  machine : ∃ table,
    m' = { p.stream.givenUp m with table }.record (.alreadyBound p.stream.channel.number)
  starts : ∀ i, (m'.controller i).starts = (m.controller i).starts
  /-- The next start is that of a new pump with the same queue. -/
  again : p'.start = p.fresh.start

theorem Built.start_refused (h : p.Built) {m : Machine} {e : Error}
    (he : (m.exec p.stream.channel.hardware p.start).1.1 = .error e) :
    e = .dma .channelBusy ∧ p.stream.Barred (p.stream.givenUp m) ∧
      p.Unstarted m (m.exec p.stream.channel.hardware p.start).1.2
        (m.exec p.stream.channel.hardware p.start).2 := by
  have hbuilt := h.start (Machine.answer p.stream.channel.hardware) m
  obtain ⟨table, hexec⟩ := h.exec_start m
  rw [show p.start.run _ m = _ from hexec] at hbuilt
  rw [hexec] at he ⊢
  obtain ⟨hbusy, hbarred, hclaimed⟩ :=
    Stream.exec_enable_barred (s := p.loaded) h.number_lt rfl (Nat.succ_ne_zero 1) he
  rw [hclaimed] at hbuilt ⊢
  refine ⟨hbusy, hbarred, rfl, rfl, ⟨table, rfl⟩, ?_, hbuilt.start_eq rfl⟩
  exact p.stream.starts_givenUp m

/-- What starts of a pump come to, and what its stream makes of calls that fail. -/
structure Intact (p : ReceivePump) : Prop where
  stream : p.stream.Intact
  /-- A start fails only if another owner holds the channel. -/
  start : ∀ (m : Machine) e, (m.exec p.stream.channel.hardware p.start).1.1 = .error e →
    e = .dma .channelBusy ∧ p.stream.Barred (p.stream.givenUp m) ∧
      p.Unstarted m (m.exec p.stream.channel.hardware p.start).1.2
        (m.exec p.stream.channel.hardware p.start).2
  /-- Whatever happens to a pump, without its channel it starts like a new one. -/
  again : p.stream.bound = false → p.start = p.fresh.start

theorem Built.intact (h : p.Built) : p.Intact where
  stream := h.coherent.stream.intact h.number_lt
  start _ _ := h.start_refused
  again := h.start_eq

end ReceivePump

/-! ## Calls that fail -/

/-- **A call that fails leaves everything as it was.** A stream and a receive pump were made and used
in any way, whoever answered them. On any machine a failing `append` changes nothing at all, and one
succeeds just when the stream admits the block; a failing `configure` changes nothing; a failing
`enable` changes nothing but the state, and that only if another owner holds the channel. A start of
the pump fails for that reason alone, starts no controller and leaves the queue as it is, and without
its channel the pump starts like a new one with the same queue. -/
theorem refusals_leave_intact {s : Stream} {p : ReceivePump} (hs : s.Reached) (hp : p.Reached) :
    s.Intact ∧ p.Intact :=
  ⟨hs.intact, hp.built.intact⟩

/-- A chain was given up and is not yet discarded; the channel of a pump is held by another owner. -/
theorem refusals_leave_intact_done :
    ∃ s p, (Machine.createStream {} ⟨3, .controller 0⟩ 2 {}).1 = .ok s ∧
      (Machine.createReceivePump {} ⟨3, .controller 0⟩ 2 0 4).1 = .ok p ∧
      let ended := (s.serve Access.fickle [(0, .append 0 64 8), (0, .enable), (0, .disable)] 0).1
      let taken : Machine := { ownership := (Ownership.bind {} 3 ⟨7⟩).2 }
      ended.state = .done ∧ ended.pool.queued = 1 ∧
        (taken.exec (.controller 0) p.start).1.1 = .error (.dma .channelBusy) ∧
        ended.Intact ∧ p.Intact := by
  obtain ⟨s, hs⟩ : ∃ s, (Machine.createStream {} ⟨3, .controller 0⟩ 2 {}).1 = .ok s := ⟨_, rfl⟩
  obtain ⟨p, hp⟩ :
      ∃ p, (Machine.createReceivePump {} ⟨3, .controller 0⟩ 2 0 4).1 = .ok p := ⟨_, rfl⟩
  have hqueue : p.queue.Valid := by
    obtain rfl := Except.ok.inj hp
    have hallocate : ByteQueue.allocate 4 = .ok (.ofCapacity 4) := rfl
    exact ByteQueue.valid_allocate hallocate
  have hmade : s.Reached := by
    have hreached := Stream.Reached.made Nat.two_pos hs s.callback
    exact hreached
  have hintact := refusals_leave_intact (hmade.serve Access.fickle
    [(0, .append 0 64 8), (0, .enable), (0, .disable)] 0) (.made hp hqueue)
  refine ⟨s, p, hs, hp, ?_, ?_, ?_, hintact⟩
  all_goals
    obtain rfl := Except.ok.inj hs
    obtain rfl := Except.ok.inj hp
    decide +kernel

end ScatterGather
