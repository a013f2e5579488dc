import ScatterGather.Proofs.Estate

/-!
# ScatterGather.Proofs.Turns — what a stream is asked for keeps to its estate

A `Turn` is one thing that a stream is asked for, or one move of its controller. An estate `Holds` a
stream when the stream's channel and its row of descriptors belong to it. Then all driver code of the
stream keeps to the estate, whatever its accesses answer: one lemma for each operation, put together
from those of its pieces. So does the controller, as long as it moves elements within the buffers.
-/

namespace ScatterGather

open Bench (Reply)

/-- What a stream can be asked for. -/
inductive StreamCall where
  | append (destination source size : Nat)
  | configure (settings : TransferSettings)
  | setCallback (callback : Option Callback)
  | enable
  | disable
  | clear
  | interrupt (event : TransferEvent)

/-- What a call to a stream does, as driver code. -/
def StreamCall.script (s : Stream) : StreamCall → DriverScript (Reply × Stream)
  | append destination source size => do
    let (result, s) ← s.append destination source size
    pure (.dma result, s)
  | configure settings =>
    let (result, s) := s.configure settings
    pure (.config result, s)
  | setCallback callback => do
    let s ← s.setCallback callback
    pure (.done, s)
  | enable => do
    let (result, s) ← s.enable
    pure (.result result, s)
  | disable => do
    let s ← s.disable
    pure (.done, s)
  | clear => do
    let s ← s.clear
    pure (.done, s)
  | interrupt event => do
    let (status, s) ← s.onInterrupt event
    pure (.status? status, s)

/-- A step that belongs to a stream: a call to it, its end, or a move of its controller. -/
inductive Turn where
  | call (call : StreamCall)
  | drop
  | moveElements (count : Nat)
  | finish

/-- What a turn of a stream does to the machine and to the stream, which may be gone afterwards. A
register window moves nothing. -/
def Turn.apply (s : Stream) (m : Machine) : Turn → (Reply × Option Stream) × Machine
  | call c =>
    let ((reply, s), m) := m.exec s.channel.hardware (c.script s)
    ((reply, some s), m)
  | drop => ((.done, none), (m.exec s.channel.hardware s.releaseIfBound).2)
  | moveElements count =>
    match s.channel.hardware with
    | .controller i => ((.done, some s), m.moveElements i count)
    | .window _ => ((.gone, some s), m)
  | finish =>
    match s.channel.hardware with
    | .controller i =>
      let (event, m) := m.finish i
      ((.event? event, some s), m)
    | .window _ => ((.gone, some s), m)

theorem Turn.apply_call (s : Stream) (m : Machine) (c : StreamCall) :
    (call c).apply s m =
      (((m.exec s.channel.hardware (c.script s)).1.1,
        some (m.exec s.channel.hardware (c.script s)).1.2),
        (m.exec s.channel.hardware (c.script s)).2) := rfl

/-- Whether the elements that a turn moves, if any, lie in some buffers. -/
def Turn.admitted (D : Buffers) (s : Stream) (m : Machine) : Turn → Bool
  | moveElements count =>
    match s.channel.hardware with
    | .controller i => D.admits m i count
    | .window _ => true
  | finish =>
    match s.channel.hardware with
    | .controller i => D.admits m i (m.controller i).remaining
    | .window _ => true
  | call _ | drop => true

namespace StreamCall

variable {s : Stream}

/-- **Every call to a stream** does to the machine no more than the stream may. -/
theorem tends (s : Stream) (c : StreamCall) : s.Tends (c.script s) (·.2) fun _ => True := by
  cases c with
  | append destination source size =>
    exact (Stream.tends_append destination source size).bind fun _ _ =>
      Stream.tends_pure (.refl _) trivial
  | configure settings => exact Stream.tends_pure (s.recast_configure settings) trivial
  | setCallback callback =>
    exact (Stream.tends_setCallback callback).bind fun _ _ => Stream.tends_pure (.refl _) trivial
  | enable => exact Stream.tends_enable.bind fun _ _ => Stream.tends_pure (.refl _) trivial
  | disable => exact Stream.tends_disable.bind fun _ _ => Stream.tends_pure (.refl _) trivial
  | clear => exact Stream.tends_clear.bind fun _ _ => Stream.tends_pure (.refl _) trivial
  | interrupt event =>
    exact (Stream.tends_onInterrupt event).bind fun _ _ => Stream.tends_pure (.refl _) trivial

end StreamCall

namespace Estate

/-- A stream's channel and its row of descriptors belong to an estate. -/
structure Holds (e : Estate) (s : Stream) : Prop where
  hardware : s.channel.hardware = e.hardware
  number : s.channel.number = e.number
  row : ∀ a, s.pool.InRow a → e.own a
  queued_le : s.pool.queued ≤ s.pool.capacity

variable {e : Estate} {s s' : Stream}

theorem Holds.recast (h : e.Holds s) (hs : s.Recast s') : e.Holds s' where
  hardware := hs.channel ▸ h.hardware
  number := hs.channel ▸ h.number
  row a ha := h.row a ((hs.inRow a).mp ha)
  queued_le := by
    rw [hs.capacity]
    exact Nat.le_trans hs.queued_le h.queued_le

/-- A stream stays where it is through anything that it may do. -/
theorem Holds.tended {m m' : Machine} (h : e.Holds s) (ht : s.Tended m s' m') : e.Holds s' where
  hardware := ht.channel ▸ h.hardware
  number := ht.channel ▸ h.number
  row a ha := by
    refine h.row a ?_
    unfold Pool.InRow Pool.addressOf at ha ⊢
    rwa [ht.base, ht.capacity] at ha
  queued_le := ht.seated.fits.queued_le

theorem Holds.own_addressAt (h : e.Holds s) (hcap : 0 < s.pool.capacity) (offset : Nat) :
    e.own (s.pool.addressAt offset) :=
  h.row _ (s.pool.inRow_addressAt hcap offset)

/-- Something that is queued, is queued in a slot. -/
theorem Holds.capacity_pos (h : e.Holds s) (hq : s.pool.queued ≠ 0) : 0 < s.pool.capacity :=
  Nat.lt_of_lt_of_le (Nat.pos_of_ne_zero hq) h.queued_le

/-! ## Writing descriptors -/

theorem within_setInterrupt {a : Nat} (ha : e.own a) (on : Bool) :
    (setInterrupt a on).Uses (Access.Within e) fun _ => True :=
  .bind (uses_perform (.fetch a) ha) fun _ _ => uses_perform (.store a _) ha

theorem Holds.within_applyInterrupts (h : e.Holds s) :
    s.applyInterrupts.Uses (Access.Within e) fun _ => True := by
  unfold Stream.applyInterrupts
  by_cases hq : s.pool.queued = 0
  · rw [hq]
    exact .done trivial
  · have hcap := h.capacity_pos hq
    exact .forEach (fun _ => within_setInterrupt (h.own_addressAt hcap _) _) ..

theorem Holds.within_relink (h : e.Holds s) (hq : s.pool.queued ≠ 0) (closeLoop : Bool) :
    (s.pool.relink closeLoop).Uses (Access.Within e) fun _ => True := by
  have hcap := h.capacity_pos hq
  exact .forEach (fun _ => uses_perform (.store ..) (h.own_addressAt hcap _)) ..

/-- A block that is queued goes to the stream's own row, and is linked behind one of its own. -/
theorem Holds.within_push (h : e.Holds s) (source destination : Nat) (control : UInt32)
    (closeLoop : Bool) :
    (s.pool.push source destination control closeLoop).Uses (Access.Within e)
      fun pushed => ∀ pool ∈ pushed, 0 < s.pool.capacity ∧
        pool = { s.pool with queued := s.pool.queued + 1 } := by
  unfold Pool.push
  by_cases hfull : s.pool.isFull = true
  · rw [if_pos hfull]
    exact .done (by simp)
  · have hroom : s.pool.queued ≠ s.pool.capacity := by simpa [Pool.isFull] using hfull
    have hcap : 0 < s.pool.capacity := by
      have hle := h.queued_le
      omega
    have hown := h.own_addressAt hcap
    rw [if_neg hfull]
    iterate 4 refine .bind (uses_perform (.store _ _) (hown s.pool.queued)) fun _ _ => ?_
    refine .bind (.when _ (uses_perform (.store _ _) (hown s.pool.queued))) fun _ _ => ?_
    refine .bind (.when _ (uses_perform (.store _ _) (hown _))) fun _ _ => .done ?_
    rintro pool ⟨⟩
    exact ⟨hcap, rfl⟩

/-! ## Operations -/

theorem Holds.within_setCallback (h : e.Holds s) (callback : Option Callback) :
    (s.setCallback callback).Uses (Access.Within e) fun _ => True := by
  have hs : e.Holds { s with callback } := h.recast (Stream.recast_of_pool rfl rfl rfl rfl)
  exact .bind (.when _ hs.within_applyInterrupts) fun _ _ => .done trivial

theorem Holds.within_append (h : e.Holds s) (destination source size : Nat) :
    (s.append destination source size).Uses (Access.Within e) fun _ => True := by
  unfold Stream.append
  cases s.checkBlock destination source size with
  | error _ => exact .done trivial
  | ok elements =>
    have hs := h.recast s.recast_discardFinished
    generalize s.discardFinished = s at hs
    refine (hs.within_push _ _ _ _).bind fun pushed hpushed => ?_
    cases pushed with
    | none => exact .done trivial
    | some pool =>
      obtain ⟨hcap, rfl⟩ := hpushed pool rfl
      refine (Stream.uses_linkedTooLate _ trivial trivial).bind fun late _ => ?_
      have hlast := within_setInterrupt (hs.own_addressAt hcap (s.pool.queued - 1)) false
      exact .bind (.when _ hlast) fun _ _ => .done trivial

theorem Holds.within_releaseChannel (h : e.Holds s) :
    s.releaseChannel.Uses (Access.Within e) fun _ => True :=
  .bind (uses_perform .halt trivial) fun _ _ =>
    .bind (uses_perform (.release ..) h.number) fun _ _ => .done trivial

theorem Holds.within_releaseIfBound (h : e.Holds s) :
    s.releaseIfBound.Uses (Access.Within e) fun _ => True := by
  unfold Stream.releaseIfBound
  split
  · exact h.within_releaseChannel
  · exact .done trivial

theorem Holds.within_disable (h : e.Holds s) :
    s.disable.Uses (Access.Within e) fun _ => True := by
  unfold Stream.disable
  split
  · exact .done trivial
  · refine h.within_releaseChannel.bind fun _ _ => ?_
    exact .bind (uses_perform (.log _) trivial) fun _ _ => .done trivial

theorem Holds.within_clear (h : e.Holds s) : s.clear.Uses (Access.Within e) fun _ => True :=
  h.within_releaseIfBound.bind fun _ _ => .done trivial

theorem Holds.within_startAtHead (h : e.Holds s) (hq : s.pool.queued ≠ 0) :
    s.startAtHead.Uses (Access.Within e) fun _ => True :=
  uses_perform (.start ..) (h.own_addressAt (h.capacity_pos hq) 0)

theorem Holds.within_enable (h : e.Holds s) : s.enable.Uses (Access.Within e) fun _ => True := by
  unfold Stream.enable
  split
  · exact .done trivial
  · next hidle =>
    have hq : s.pool.queued ≠ 0 := by
      intro hq
      simp [Pool.isEmpty, hq] at hidle
    refine .bind (uses_perform (.bind ..) h.number) fun granted _ => ?_
    cases granted with
    | error _ => exact .done trivial
    | ok _ =>
      have hs : e.Holds { s with bound := true, stalled := none } :=
        ⟨h.hardware, h.number, h.row, h.queued_le⟩
      refine (hs.within_relink hq _).bind fun _ _ => ?_
      refine hs.within_applyInterrupts.bind fun _ _ => ?_
      refine .bind (uses_perform (.log _) trivial) fun _ _ => ?_
      exact (hs.within_startAtHead hq).bind fun _ _ => .done trivial

theorem Holds.within_retirePassed (h : e.Holds s) :
    s.retirePassed.Uses (Access.Within e) e.Holds := by
  unfold Stream.retirePassed
  split
  · exact .done h
  · refine (s.uses_executingOffset trivial trivial).bind fun passed _ => ?_
    exact .done (h.recast (s.recast_retire passed))

theorem Holds.within_onComplete (h : e.Holds s) :
    s.onComplete.Uses (Access.Within e) fun _ => True := by
  refine h.within_retirePassed.bind fun s' hs' => ?_
  show Script.Uses _ _ (if (!s'.isCircular && !s'.pool.isEmpty) = true then _ else _)
  split
  · next hleft =>
    have hq : s'.pool.queued ≠ 0 := by
      intro hq
      simp [Pool.isEmpty, hq] at hleft
    refine .bind (uses_perform (.log _) trivial) fun _ _ => ?_
    exact (hs'.within_startAtHead hq).bind fun _ _ => .done trivial
  · exact hs'.within_releaseChannel.bind fun _ _ => .done trivial

theorem Holds.within_onTimeout (h : e.Holds s) :
    s.onTimeout.Uses (Access.Within e) fun _ => True := by
  refine .bind (uses_perform (.log _) trivial) fun _ _ => ?_
  cases s.config.timeoutPolicy with
  | abort => exact h.within_releaseChannel.bind fun _ _ => .done trivial
  | restart =>
    exact (s.uses_drainAndResume trivial trivial trivial trivial).bind fun _ _ => .done trivial

theorem Holds.within_onInterrupt (h : e.Holds s) (event : TransferEvent) :
    (s.onInterrupt event).Uses (Access.Within e) fun _ => True := by
  have hreact : (s.react event).Uses (Access.Within e) fun _ => True := by
    cases event with
    | progress => exact h.within_retirePassed.bind fun _ _ => .done trivial
    | complete => exact h.within_onComplete
    | busError =>
      refine .bind (uses_perform (.log _) trivial) fun _ _ => ?_
      exact h.within_releaseChannel.bind fun _ _ => .done trivial
    | timeout => exact h.within_onTimeout
  unfold Stream.onInterrupt
  split
  · exact .done trivial
  · refine hreact.bind fun s' _ => ?_
    exact (s'.uses_notify fun _ => trivial).bind fun _ _ => .done trivial

/-- **All driver code of a stream** keeps to the estate that holds the stream. -/
theorem Holds.within_call (h : e.Holds s) (c : StreamCall) :
    (c.script s).Uses (Access.Within e) fun _ => True := by
  cases c with
  | append destination source size =>
    exact (h.within_append destination source size).bind fun _ _ => .done trivial
  | configure settings => exact .done trivial
  | setCallback callback => exact (h.within_setCallback callback).bind fun _ _ => .done trivial
  | enable => exact h.within_enable.bind fun _ _ => .done trivial
  | disable => exact h.within_disable.bind fun _ _ => .done trivial
  | clear => exact h.within_clear.bind fun _ _ => .done trivial
  | interrupt event => exact (h.within_onInterrupt event).bind fun _ _ => .done trivial

/-! ## Turns -/

section Turns

variable {m n : Machine} (h : e.Holds s)

include h

/-- Whether a turn is admitted is seen by the party. -/
theorem Holds.admitted_congr (hsame : e.Same m n) (hin : e.Inside m) (t : Turn) :
    t.admitted e.buffers s m = t.admitted e.buffers s n := by
  have hadmits {i : Nat} (hi : s.channel.hardware = .controller i) (count : Nat) :
      e.buffers.admits m i count = e.buffers.admits n i count := by
    have hi' : e.hardware = .controller i := h.hardware ▸ hi
    unfold Buffers.admits
    rw [← hsame.controller i hi']
    dsimp only
    rcases hin i hi' with hstop | hseen
    · simp [Controller.isRunning, hstop]
    · rw [hsame.descriptor _ hseen]
  cases t with
  | call | drop => rfl
  | moveElements count =>
    cases hhw : s.channel.hardware with
    | window i => simp [Turn.admitted, hhw]
    | controller i => simpa [Turn.admitted, hhw] using hadmits hhw count
  | finish =>
    cases hhw : s.channel.hardware with
    | window i => simp [Turn.admitted, hhw]
    | controller i =>
      have hi' : e.hardware = .controller i := h.hardware ▸ hhw
      simpa [Turn.admitted, hhw, ← hsame.controller i hi'] using hadmits hhw _

/-- **A turn** comes to the same wherever the party sees the same. -/
theorem Holds.apply_same (hsame : e.Same m n) (hin : e.Enclosed m) {t : Turn}
    (hadmitted : t.admitted e.buffers s m = true) :
    (t.apply s m).1 = (t.apply s n).1 ∧ e.Same (t.apply s m).2 (t.apply s n).2 := by
  cases t with
  | call c =>
    obtain ⟨hvalue, hafter⟩ := hsame.exec (h.within_call c) hin.inside
    rw [Turn.apply_call, Turn.apply_call, h.hardware, ← hvalue]
    exact ⟨rfl, hafter⟩
  | drop =>
    obtain ⟨-, hafter⟩ := hsame.exec h.within_releaseIfBound hin.inside
    simp only [Turn.apply, h.hardware]
    exact ⟨trivial, hafter⟩
  | moveElements count =>
    cases hhw : s.channel.hardware with
    | window i => simpa [Turn.apply, hhw] using hsame
    | controller i =>
      simp only [Turn.apply, Turn.admitted, hhw] at hadmitted ⊢
      exact ⟨trivial, hsame.moveElements (h.hardware ▸ hhw) hin.inside hadmitted⟩
  | finish =>
    cases hhw : s.channel.hardware with
    | window i => simpa [Turn.apply, hhw] using hsame
    | controller i =>
      simp only [Turn.apply, Turn.admitted, hhw] at hadmitted ⊢
      obtain ⟨hevent, hafter⟩ := hsame.finish (h.hardware ▸ hhw) hin hadmitted
      exact ⟨by rw [hevent], hafter⟩

/-- It changes nothing outside the estate. -/
theorem Holds.apply_spares {t : Turn} (hadmitted : t.admitted e.buffers s m = true) :
    e.Spares m (t.apply s m).2 := by
  cases t with
  | call c =>
    rw [Turn.apply_call, h.hardware]
    exact .exec (h.within_call c) m
  | drop =>
    simp only [Turn.apply, h.hardware]
    exact .exec h.within_releaseIfBound m
  | moveElements count =>
    cases hhw : s.channel.hardware with
    | window i => simpa [Turn.apply, hhw] using Spares.refl e m
    | controller i =>
      simp only [Turn.apply, Turn.admitted, hhw] at hadmitted ⊢
      exact .moveElements (h.hardware ▸ hhw) hadmitted
  | finish =>
    cases hhw : s.channel.hardware with
    | window i => simpa [Turn.apply, hhw] using Spares.refl e m
    | controller i =>
      simp only [Turn.apply, Turn.admitted, hhw] at hadmitted ⊢
      exact .finish (h.hardware ▸ hhw) hadmitted

end Turns

end Estate

end ScatterGather
