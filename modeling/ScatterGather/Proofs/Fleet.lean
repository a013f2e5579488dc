import ScatterGather.Proofs.Exclusion
import ScatterGather.Proofs.Turns

/-!
# ScatterGather.Proofs.Fleet — streams that take turns on one machine

A `Fleet` is a machine with the streams that live on it, each at a seat of its own. `Fleet.turn` is a
turn of one of them; `Fleet.run` is a run of turns that one stream takes alone, and `Fleet.interleave`
one in which two streams take turns. Nothing is taken from the trace of earlier turns: what a turn
leaves in the trace belongs to its outcome.

A turn leaves the streams in order, wherever they live (`Fleet.Along`). When it keeps to the estate of
its stream it changes nothing outside, and comes to the same in all fleets that look the same to the
stream (`Fleet.Like`). On a bench the turns are the commands to its streams
(`Bench.objectStep_eq_turn`).
-/

namespace ScatterGather

open Bench (Reply)

/-! ## Turns of a stream among others -/

namespace Stream

variable {s s' : Stream} {m : Machine} {t : Turn}

/-- A stream has the channel and the row of descriptors that another one had. -/
structure Rooted (s s' : Stream) : Prop where
  channel : s'.channel = s.channel
  base : s'.pool.base = s.pool.base
  capacity : s'.pool.capacity = s.pool.capacity

theorem Rooted.refl (s : Stream) : s.Rooted s :=
  ⟨rfl, rfl, rfl⟩

theorem Rooted.trans {s'' : Stream} (h : s.Rooted s') (h' : s'.Rooted s'') : s.Rooted s'' :=
  ⟨h'.channel.trans h.channel, h'.base.trans h.base, h'.capacity.trans h.capacity⟩

theorem Rooted.inRow (h : s.Rooted s') (a : Nat) : s'.pool.InRow a ↔ s.pool.InRow a := by
  unfold Pool.InRow Pool.addressOf
  rw [h.base, h.capacity]

/-- A stream stays where it is. -/
theorem Seated.rooted_apply (hs : s.Seated m) (h : (t.apply s m).1.2 = some s') :
    s.Rooted s' := by
  cases t with
  | drop => cases h
  | call c =>
    rw [Turn.apply_call] at h
    cases h
    have ht := (c.tends s m hs).2
    exact ⟨ht.channel, ht.base, ht.capacity⟩
  | moveElements count =>
    obtain rfl : s = s' := by
      cases hhw : s.channel.hardware <;> simpa [Turn.apply, hhw] using h
    exact .refl s
  | finish =>
    obtain rfl : s = s' := by
      cases hhw : s.channel.hardware <;> simpa [Turn.apply, hhw] using h
    exact .refl s

end Stream

/-- A turn of one stream leaves the streams of a machine in order. -/
theorem Tenancy.apply {given : List OwnerId} {issued : Nat} {live : Seating} {m : Machine}
    {x : Seat} {s : Stream} (h : Tenancy given issued live m) (hx : live x = some s) (t : Turn) :
    Tenancy given issued (live.set x (t.apply s m).1.2) (t.apply s m).2 := by
  cases t with
  | call c => exact h.tend hx (c.tends s m (h.housed x s hx).seated).2
  | drop => exact h.drop hx
  | moveElements count =>
    cases hhw : s.channel.hardware with
    | window i =>
      simp only [Turn.apply, hhw]
      rwa [Seating.set_eq_self hx]
    | controller i =>
      simp only [Turn.apply, hhw]
      rw [Seating.set_eq_self hx]
      exact h.drift (m.drift_moveElements i count)
  | finish =>
    cases hhw : s.channel.hardware with
    | window i =>
      simp only [Turn.apply, hhw]
      rwa [Seating.set_eq_self hx]
    | controller i =>
      simp only [Turn.apply, hhw]
      rw [Seating.set_eq_self hx]
      exact h.drift (m.drift_finish i)

/-! ## Fleets -/

/-- What a turn answers, and what it leaves in the trace. -/
structure Outcome where
  reply : Reply
  log : Array LogRecord := #[]
  reports : Array Report := #[]

/-- Streams, and the machine that they share. -/
structure Fleet where
  live : Seating
  machine : Machine

/-- The streams of a bench. -/
def Bench.fleet (b : Bench) : Fleet :=
  ⟨b.tenants, b.machine⟩

/-- A machine with another trace. -/
def Machine.traced (m : Machine) (log : Array LogRecord) (reports : Array Report) : Machine :=
  { m with log, reports }

namespace Fleet

/-- A turn of the stream at a seat. Its trace is part of its outcome and not of the fleet, since
records of different streams have an order of their own. -/
def turn (f : Fleet) (x : Seat) (t : Turn) : Outcome × Fleet :=
  match f.live x with
  | none => ({ reply := .gone }, f)
  | some s =>
    let ((reply, s), m) := t.apply s (f.machine.traced #[] #[])
    ({ reply, log := m.log, reports := m.reports },
      { live := f.live.set x s, machine := m.traced f.machine.log f.machine.reports })

/-- A run in which one stream takes all turns. -/
def run (x : Seat) : List Turn → Fleet → List Outcome × Fleet
  | [], f => ([], f)
  | t :: rest, f =>
    let (outcome, f) := f.turn x t
    let (outcomes, f) := run x rest f
    (outcome :: outcomes, f)

/-- Whether the elements that the controller of a stream moves in such a run lie in some buffers. -/
def keeps (x : Seat) (D : Buffers) : List Turn → Fleet → Bool
  | [], _ => true
  | t :: rest, f => (f.live x).all (t.admitted D · f.machine) && (f.turn x t).2.keeps x D rest

/-- A run in which two streams take turns, one on the left and one on the right. -/
def interleave (x y : Seat) : List (Turn ⊕ Turn) → Fleet → List (Outcome ⊕ Outcome) × Fleet
  | [], f => ([], f)
  | .inl t :: rest, f =>
    let (outcome, f) := f.turn x t
    let (outcomes, f) := interleave x y rest f
    (.inl outcome :: outcomes, f)
  | .inr t :: rest, f =>
    let (outcome, f) := f.turn y t
    let (outcomes, f) := interleave x y rest f
    (.inr outcome :: outcomes, f)

/-- What belongs to the left, in order. -/
def lefts {α : Type} (items : List (α ⊕ α)) : List α :=
  items.filterMap Sum.getLeft?

def rights {α : Type} (items : List (α ⊕ α)) : List α :=
  items.filterMap Sum.getRight?

variable {given : List OwnerId} {issued : Nat} {f g f₀ : Fleet} {x z : Seat}
  {s : Stream} {D : Buffers} {e : Estate} {t : Turn} {rest : List Turn}

theorem run_cons (f : Fleet) (x : Seat) (t : Turn) (rest : List Turn) :
    f.run x (t :: rest) =
      ((f.turn x t).1 :: ((f.turn x t).2.run x rest).1, ((f.turn x t).2.run x rest).2) := rfl

theorem interleave_inl (f : Fleet) (x y : Seat) (t : Turn) (rest : List (Turn ⊕ Turn)) :
    f.interleave x y (.inl t :: rest) =
      (.inl (f.turn x t).1 :: ((f.turn x t).2.interleave x y rest).1,
        ((f.turn x t).2.interleave x y rest).2) := rfl

theorem interleave_inr (f : Fleet) (x y : Seat) (t : Turn) (rest : List (Turn ⊕ Turn)) :
    f.interleave x y (.inr t :: rest) =
      (.inr (f.turn y t).1 :: ((f.turn y t).2.interleave x y rest).1,
        ((f.turn y t).2.interleave x y rest).2) := rfl

theorem keeps_cons : f.keeps x D (t :: rest) = true ↔
    (f.live x).all (t.admitted D · f.machine) = true ∧ (f.turn x t).2.keeps x D rest = true :=
  Bool.and_eq_true_iff

section Sides

variable {α : Type} (a : α) (items : List (α ⊕ α))

@[simp] theorem lefts_inl : lefts (.inl a :: items) = a :: lefts items := rfl

@[simp] theorem lefts_inr : lefts (.inr a :: items) = lefts items := rfl

@[simp] theorem rights_inl : rights (.inl a :: items) = rights items := rfl

@[simp] theorem rights_inr : rights (.inr a :: items) = a :: rights items := rfl

end Sides

/-! ### What one turn does -/

theorem turn_none (h : f.live x = none) (t : Turn) : f.turn x t = ({ reply := .gone }, f) := by
  unfold turn
  rw [h]

theorem turn_some (h : f.live x = some s) (t : Turn) :
    f.turn x t =
      ({ reply := (t.apply s (f.machine.traced #[] #[])).1.1
         log := (t.apply s (f.machine.traced #[] #[])).2.log
         reports := (t.apply s (f.machine.traced #[] #[])).2.reports },
       { live := f.live.set x (t.apply s (f.machine.traced #[] #[])).1.2
         machine :=
          (t.apply s (f.machine.traced #[] #[])).2.traced f.machine.log f.machine.reports }) := by
  unfold turn
  rw [h]

/-- Other streams are not concerned. -/
theorem live_turn_of_ne (hne : z ≠ x) (t : Turn) : (f.turn x t).2.live z = f.live z := by
  cases h : f.live x with
  | none => rw [turn_none h]
  | some s =>
    rw [turn_some h]
    exact Seating.set_of_ne hne

theorem trace_turn (f : Fleet) (x : Seat) (t : Turn) :
    (f.turn x t).2.machine.log = f.machine.log ∧
      (f.turn x t).2.machine.reports = f.machine.reports := by
  cases h : f.live x with
  | none =>
    rw [turn_none h]
    exact ⟨rfl, rfl⟩
  | some s =>
    rw [turn_some h]
    exact ⟨rfl, rfl⟩

/-- A turn that moves elements within the buffers changes nothing outside the stream's estate. -/
theorem spares_turn (hholds : ∀ s, f.live x = some s → e.Holds s)
    (hadmitted : (f.live x).all (t.admitted e.buffers · f.machine) = true) :
    e.Spares f.machine (f.turn x t).2.machine := by
  cases h : f.live x with
  | none =>
    rw [turn_none h]
    exact .refl e f.machine
  | some s =>
    rw [h] at hadmitted
    rw [turn_some h]
    have hspares := (hholds s h).apply_spares (m := f.machine.traced #[] #[]) hadmitted
    exact { hspares with }

/-! ### What one stream sees of it -/

/-- To the stream at a seat two fleets look the same. -/
structure Like (e : Estate) (x : Seat) (f g : Fleet) : Prop where
  stream : f.live x = g.live x
  same : e.Same f.machine g.machine

theorem Like.refl (e : Estate) (x : Seat) (f : Fleet) : Like e x f f :=
  ⟨rfl, .refl e f.machine⟩

section Like

variable (h : Like e x f g) (hholds : ∀ s, f.live x = some s → e.Holds s)
  (hin : e.Enclosed f.machine)

include h hholds hin

theorem Like.admitted (t : Turn) :
    (f.live x).all (t.admitted e.buffers · f.machine) =
      (g.live x).all (t.admitted e.buffers · g.machine) := by
  rw [← h.stream]
  cases hs : f.live x with
  | none => rfl
  | some s => exact (hholds s hs).admitted_congr h.same hin.inside t

/-- **A turn** comes to the same in fleets that look the same to the stream. -/
theorem Like.turn (hadmitted : (f.live x).all (t.admitted e.buffers · f.machine) = true) :
    (f.turn x t).1 = (g.turn x t).1 ∧ Like e x (f.turn x t).2 (g.turn x t).2 := by
  cases hs : f.live x with
  | none =>
    rw [turn_none hs, turn_none (h.stream.symm.trans hs)]
    exact ⟨rfl, h⟩
  | some s =>
    rw [hs] at hadmitted
    have hfresh : e.Same (f.machine.traced #[] #[]) (g.machine.traced #[] #[]) :=
      { h.same with log := rfl, reports := rfl }
    obtain ⟨hvalue, hsame⟩ := (hholds s hs).apply_same hfresh (by exact hin) hadmitted
    rw [turn_some hs, turn_some (h.stream.symm.trans hs), hvalue, hsame.log, hsame.reports]
    refine ⟨rfl, ?_, ?_⟩
    · exact Seating.set_self.trans Seating.set_self.symm
    · exact { hsame with log := h.same.log, reports := h.same.reports }

end Like

/-! ### Streams that get along -/

/-- One fleet has become another by turns: the streams still get along, and each is where it was. -/
structure Along (given : List OwnerId) (issued : Nat) (f₀ f : Fleet) : Prop where
  tenancy : Tenancy given issued f.live f.machine
  rooted : ∀ z s, f.live z = some s → ∃ s₀, f₀.live z = some s₀ ∧ s₀.Rooted s

theorem Along.turn (h : Along given issued f₀ f) (x : Seat) (t : Turn) :
    Along given issued f₀ (f.turn x t).2 := by
  cases hx : f.live x with
  | none =>
    rw [turn_none hx]
    exact h
  | some s =>
    have hfresh : Tenancy given issued f.live (f.machine.traced #[] #[]) :=
      h.tenancy.undisturbed ⟨rfl, rfl, fun _ => rfl, fun _ => rfl⟩
    refine ⟨?_, ?_⟩
    · rw [turn_some hx]
      exact (hfresh.apply hx t).undisturbed ⟨rfl, rfl, fun _ => rfl, fun _ => rfl⟩
    · intro z s' hz
      rw [turn_some hx] at hz
      rcases Seating.set_eq_some.mp hz with ⟨rfl, hs'⟩ | ⟨-, hz⟩
      · obtain ⟨s₀, hs₀, hroot⟩ := h.rooted z s hx
        exact ⟨s₀, hs₀, hroot.trans ((hfresh.housed z s hx).seated.rooted_apply hs')⟩
      · exact h.rooted z s' hz

end Fleet

/-! ## Commands of a bench -/

namespace Machine

variable {m : Machine} {log : Array LogRecord} {reports : Array Report}

/-- A machine with an earlier trace in front of its own. -/
def after (m : Machine) (log : Array LogRecord) (reports : Array Report) : Machine :=
  m.traced (log ++ m.log) (reports ++ m.reports)

/-- Nothing reads the trace. -/
theorem answer_after (hw : Hardware) (a : Access) :
    answer hw a (m.after log reports) =
      ((answer hw a m).1, (answer hw a m).2.after log reports) := by
  cases a with
  | bind channel owner =>
    have howner : (m.after log reports).ownership = m.ownership := rfl
    refine Prod.ext rfl ?_
    show ((m.after log reports).bind channel owner).2 = (m.bind channel owner).2.after log reports
    unfold Machine.bind
    rw [howner]
    -- only a refused claim is recorded
    obtain ⟨result, ownership⟩ := m.ownership.bind channel owner
    cases result with
    | ok => rfl
    | error e =>
      cases e with
      | dma => simp [after, traced, record]
      | _ => rfl
  | log r => simp [answer, after, traced, record]
  | report r => simp [answer, after, traced, tell]
  | start | halt | pause | resume | isActive | nextPointer | transferCount | isPending =>
    cases hw <;> rfl
  | release | fetch | store | load | save => rfl

theorem exec_after {α : Type} (hw : Hardware) (x : DriverScript α) :
    (m.after log reports).exec hw x = ((m.exec hw x).1, (m.exec hw x).2.after log reports) := by
  induction x generalizing m with
  | done value => rfl
  | ask a next ih =>
    unfold exec at ih ⊢
    rw [Script.run_ask, Script.run_ask, answer_after]
    exact ih _

end Machine

theorem Turn.apply_after (t : Turn) (s : Stream) (m : Machine) (log : Array LogRecord)
    (reports : Array Report) :
    t.apply s (m.after log reports) =
      ((t.apply s m).1, (t.apply s m).2.after log reports) := by
  cases t with
  | call c => rw [apply_call, apply_call, Machine.exec_after]
  | drop => simp only [apply, Machine.exec_after]
  | moveElements | finish =>
    cases hhw : s.channel.hardware with
    | window => simp only [apply, hhw]
    | controller =>
      simp only [apply, hhw]
      rfl

namespace Bench

/-- What a command to a stream calls, if it is one of the calls that change something. -/
def StreamCommand.call? (label : Nat) : StreamCommand → Option StreamCall
  | append destination source size => some (.append destination source size)
  | enable => some .enable
  | disable => some .disable
  | clear => some .clear
  | configure settings => some (.configure settings)
  | callback on => some (.setCallback ((callbackFor label on).map .report))
  | interrupt event => some (.interrupt event)
  | residue | queued | info | text => none

theorem StreamCommand.script_eq {label : Nat} {command : StreamCommand} {c : StreamCall}
    (h : command.call? label = some c) (s : Stream) : command.script s label = c.script s := by
  cases command <;> cases h <;> rfl

/-- The turn that a command to the stream at a place is, if it is one. -/
def ObjectCommand.turn? (label : Nat) : ObjectCommand → Option Turn
  | stream command => (command.call? label).map .call
  | drop => some .drop
  | controller (.moveElements count) => some (.moveElements count)
  | controller .finish => some .finish
  | _ => none

section Command

variable {b : Bench} {i label : Nat} {s : Stream} {command : ObjectCommand} {t : Turn}
  (h : b.object? i = some (.stream s label)) (ht : command.turn? label = some t)

include h ht

theorem objectStep_eq_apply :
    (b.objectStep i command).1 = (t.apply s b.machine).1.1 ∧
      (b.objectStep i command).2.fleet =
        ⟨b.tenants.set (.object i) (t.apply s b.machine).1.2, (t.apply s b.machine).2⟩ := by
  have hlt : i < b.objects.size := object?_lt h
  have hlive : b.tenants (.object i) = some s := tenants_object h
  unfold objectStep
  rw [h]
  cases command with
  | stream command =>
    obtain ⟨c, hc, rfl⟩ := Option.map_eq_some_iff.mp ht
    rw [Turn.apply_call]
    dsimp only
    rw [StreamCommand.script_eq hc]
    refine ⟨rfl, ?_⟩
    exact congrArg (Fleet.mk · _) (tenants_setObject (b := (b.exec _ _).2) hlt _)
  | drop =>
    cases ht
    refine ⟨rfl, ?_⟩
    have hslot : b.hasSlot i = false := by
      unfold hasSlot
      rw [h]
      rfl
    show (b.dropObject i).fleet = _
    unfold dropObject letGo
    rw [hslot, if_neg Bool.false_ne_true, h]
    exact congrArg (Fleet.mk · _) (tenants_setObject hlt none)
  | controller command =>
    cases command with
    | moveElements count =>
      cases ht
      cases hhw : s.channel.hardware with
      | window j =>
        simp only [Object.hardware, hhw, Turn.apply, Seating.set_eq_self hlive, true_and]
        rfl
      | controller j =>
        simp only [Object.hardware, hhw, Turn.apply, Seating.set_eq_self hlive]
        exact ⟨rfl, rfl⟩
    | finish =>
      cases ht
      cases hhw : s.channel.hardware with
      | window j =>
        simp only [Object.hardware, hhw, Turn.apply, Seating.set_eq_self hlive, true_and]
        rfl
      | controller j =>
        simp only [Object.hardware, hhw, Turn.apply, Seating.set_eq_self hlive]
        exact ⟨rfl, rfl⟩
    | _ => cases ht
  | _ => cases ht

/-- **A command to a stream of a bench is a turn** of the bench's streams. The trace goes on from
what was there. -/
theorem objectStep_eq_turn :
    (b.objectStep i command).1 = (b.fleet.turn (.object i) t).1.reply ∧
      (b.objectStep i command).2.fleet.live = (b.fleet.turn (.object i) t).2.live ∧
      (b.objectStep i command).2.machine =
        (b.fleet.turn (.object i) t).2.machine.traced
          (b.machine.log ++ (b.fleet.turn (.object i) t).1.log)
          (b.machine.reports ++ (b.fleet.turn (.object i) t).1.reports) := by
  obtain ⟨hreply, hfleet⟩ := objectStep_eq_apply h ht
  have hlive : b.fleet.live (.object i) = some s := tenants_object h
  have hmachine : b.machine = (b.machine.traced #[] #[]).after b.machine.log b.machine.reports := by
    simp [Machine.after, Machine.traced]
  have hafter := t.apply_after s (b.machine.traced #[] #[]) b.machine.log b.machine.reports
  rw [← hmachine] at hafter
  rw [hafter] at hreply hfleet
  rw [Fleet.turn_some hlive]
  refine ⟨hreply, ?_, ?_⟩
  · rw [hfleet]
    rfl
  · exact congrArg (·.machine) hfleet

end Command

end Bench

end ScatterGather
