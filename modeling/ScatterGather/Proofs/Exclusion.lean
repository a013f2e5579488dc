import ScatterGather.Proofs.Claiming
import ScatterGather.Proofs.Conduct

/-!
# ScatterGather.Proofs.Exclusion — channels have one holder, and follow the streams

Any number of streams, pumps and slots share the channels of a bench, and so does a tester who
claims channels with identities of its own. A `Trial` is a bench with a record of the identities
that were handed out, and `Trial.ownership_exclusive` says of every run of every trial that the
streams keep to their channels: whoever holds a channel is on record and nobody else, a controller
runs inside the pool of the one stream that holds it, a stream that holds nothing leaves the
controller alone, and what is dropped holds nothing any more.

What controllers and register windows read is not restricted. The tester may let them lie.
-/

namespace ScatterGather

namespace Bench

/-! ## What exclusion is -/

/-- A stream that does not hold its channel neither starts nor halts the controller, but for an
`enable` that was granted the channel before. -/
structure KeepsOff (s : Stream) : Prop where
  quiet : ∀ label command, command ≠ StreamCommand.enable →
    (command.script s label).Uses Access.Quiet fun _ => True
  claims : ∀ label, ClaimsFirst s.channel.number s.owner (StreamCommand.enable.script s label)
  drop : s.releaseIfBound.Uses Access.Quiet fun _ => True

/-- Channels are held by one stream at a time, and follow it. -/
structure Exclusive (given : List OwnerId) (b : Bench) : Prop where
  /-- No two streams have one identity, and the tester was given none of theirs. -/
  distinct : ∀ x y s t, b.tenants x = some s → b.tenants y = some t → s.owner = t.owner → x = y
  native : ∀ x s, b.tenants x = some s → s.owner ∉ given
  /-- A stream's flag is set exactly when the stream is on record as the owner of its channel. -/
  flag : ∀ x s, b.tenants x = some s →
    (s.bound = true ↔ b.machine.ownership.owner s.channel.number = some s.owner)
  /-- Whoever is on record was given its identity, or is a stream here that holds the channel. -/
  held : ∀ channel o, b.machine.ownership.owner channel = some o →
    o ∈ given ∨ ∃ x s, b.tenants x = some s ∧ s.bound = true ∧ s.channel.number = channel ∧
      s.owner = o
  /-- No two streams hold one channel. -/
  alone : ∀ x y s t, b.tenants x = some s → b.tenants y = some t → s.bound = true →
    t.bound = true → s.channel.number = t.channel.number → x = y
  /-- A controller that runs is inside the pool of a stream on it that holds its channel, and there
  is no other such stream. -/
  driver : ∀ i, (b.machine.controller i).current ≠ 0 →
    ∃ x s, b.tenants x = some s ∧ s.bound = true ∧ s.channel.hardware = .controller i ∧
      s.pool.InRow (b.machine.controller i).current ∧
      ∀ y t, b.tenants y = some t → t.bound = true → t.channel.hardware = .controller i → y = x
  /-- Streams that hold nothing leave the controller alone. -/
  idle : ∀ x s, b.tenants x = some s → s.bound = false → KeepsOff s
  idleTransmit : ∀ i p, b.object? i = some (.transmit p) → p.stream.bound = false →
    ∀ label (command : TransmitCommand),
      ClaimsFirst p.stream.channel.number p.stream.owner (command.script p label)
  idleReceive : ∀ i p, b.object? i = some (.receive p) → p.stream.bound = false →
    ∀ label (command : ReceiveCommand),
      ClaimsFirst p.stream.channel.number p.stream.owner (command.script p label)
  /-- The stream of an object that is dropped, or of a slot, holds no channel any more. -/
  released : ∀ i s, b.stream? i = some s → ∀ channel,
    (b.dropObject i).machine.ownership.owner channel ≠ some s.owner
  /-- Once everything is dropped, no stream is left, every controller has stopped, and a channel is
  held only by somebody who was given an identity. -/
  vacant : ∀ x, b.dropAll.tenants x = none
  stopped : ∀ i, (b.dropAll.machine.controller i).current = 0
  dropped : ∀ channel o, b.dropAll.machine.ownership.owner channel = some o → o ∈ given

theorem keepsOff {s : Stream} (hb : s.bound = false) : KeepsOff s where
  quiet label _ hc := (StreamCommand.quiet hb label hc).anyValue
  claims _ := Stream.claimsFirst_enable.bind fun _ => .done _
  drop := (Stream.quiet_releaseIfBound hb).anyValue

/-! ## Dropping everything -/

variable {given : List OwnerId} {issued : Nat} {b : Bench}

/-- The streams that are left after a row of seats was emptied. -/
theorem tenants_foldl {act : Bench → Nat → Bench} {seat : Nat → Seat}
    (hact : ∀ b i, (act b i).tenants = b.tenants.set (seat i) none) (b : Bench) (places : List Nat)
    (x : Seat) :
    (places.foldl act b).tenants x = if x ∈ places.map seat then none else b.tenants x := by
  induction places generalizing b with
  | nil => rfl
  | cons i places ih =>
    rw [List.foldl_cons, ih, hact]
    by_cases hx : x = seat i
    · simp [hx]
    · simp [hx, Seating.set_of_ne hx]

/-- What is empty stays empty when objects are dropped, and so does what each of them leaves. -/
theorem tenants_foldl_dropObject (places : List Nat) {x : Seat}
    (hx : b.tenants x = none ∨ ∃ i ∈ places, x = .object i) :
    (places.foldl Bench.dropObject b).tenants x = none := by
  induction places generalizing b with
  | nil => exact hx.elim id fun ⟨_, hi, _⟩ => absurd hi List.not_mem_nil
  | cons i places ih =>
    refine ih ?_
    rw [tenants_dropObject]
    split
    · exact .inl rfl
    · next hne =>
      refine hx.imp_right fun ⟨j, hj, hxj⟩ => ?_
      have hji : j ≠ i := fun heq => hne (.inl (heq ▸ hxj))
      exact ⟨j, (List.mem_cons.mp hj).resolve_left hji, hxj⟩

/-- Nobody is left when everything is dropped. -/
theorem tenants_dropAll (b : Bench) (x : Seat) : b.dropAll.tenants x = none := by
  refine tenants_foldl_dropObject _ ?_
  rw [tenants_foldl fun b i => (b.emptySlot_eq i).1]
  cases x with
  | slot i =>
    refine .inl ?_
    split
    · rfl
    · next hi => exact tenants_slot_of_le (by simpa using hi)
  | object i =>
    by_cases hi : i < b.objects.size
    · exact .inr ⟨i, List.mem_range.mpr hi, rfl⟩
    · left
      rw [if_neg (by simp)]
      exact tenants_of_le (Nat.not_lt.mp hi)

namespace Settled

theorem foldl {act : Bench → Nat → Bench}
    (hact : ∀ {b} i, Settled given issued b → (act b i).Settled given issued)
    (h : b.Settled given issued) (places : List Nat) :
    (places.foldl act b).Settled given issued := by
  induction places generalizing b with
  | nil => exact h
  | cons i places ih => exact ih (hact i h)

theorem dropAll (h : b.Settled given issued) : b.dropAll.Settled given issued :=
  foldl (fun i h => h.dropObject i) (foldl (fun i h => h.emptySlot i) h _) _

/-- A stream is on record for nothing once its object is dropped. -/
theorem released (h : b.Settled given issued) {i : Nat} {s : Stream} (hs : b.stream? i = some s)
    (channel : Nat) : (b.dropObject i).machine.ownership.owner channel ≠ some s.owner := by
  intro ho
  obtain ⟨x, hx, hgone⟩ : ∃ x, b.tenants x = some s ∧ (b.dropObject i).tenants x = none := by
    unfold stream? at hs
    cases hslot : b.hasSlot i with
    | true =>
      rw [hslot, if_pos rfl] at hs
      exact ⟨.slot i, hs, by rw [tenants_dropObject, if_pos (.inr ⟨rfl, hslot⟩)]⟩
    | false =>
      rw [hslot, if_neg Bool.false_ne_true] at hs
      exact ⟨.object i, hs, by rw [tenants_dropObject, if_pos (.inl rfl)]⟩
  rcases (h.dropObject i).recorded channel s.owner ho with hgiven | ⟨y, t, hy, howner⟩
  · exact (h.housed x s hx).native hgiven
  · -- whoever else is on record under its name would be the stream itself
    have hold : b.tenants y = some t := by
      rw [tenants_dropObject] at hy
      split at hy
      · cases hy
      · exact hy
    obtain rfl : y = x := Tenancy.distinct h hold hx howner
    rw [hgone] at hy
    cases hy

/-- On a bench that is settled, channels are held by one stream at a time. -/
theorem exclusive (h : b.Settled given issued) : b.Exclusive given where
  distinct _ _ _ _ hx hy howner := Tenancy.distinct h hx hy howner
  native x s hx := (h.housed x s hx).native
  flag _ _ hx := Tenancy.flag h hx
  held _ _ ho := Tenancy.held h ho
  alone _ _ _ _ hx hy hb hb' hnumber := Tenancy.alone h hx hy hb hb' hnumber
  driver i hc := by
    obtain ⟨x, s, hx, hb, hi, hrow⟩ := Tenancy.driver h hc
    refine ⟨x, s, hx, hb, hi, hrow, ?_⟩
    intro y t hy hb' hi'
    exact Tenancy.alone h hy hx hb' hb (Tenancy.same_number h hy hx hi' hi)
  idle _ _ _ hb := keepsOff hb
  idleTransmit _ _ _ hb label command := command.claimsFirst hb label
  idleReceive _ _ _ hb label command := command.claimsFirst hb label
  released _ _ hs := h.released hs
  vacant := b.tenants_dropAll
  stopped i := by
    refine (h.dropAll.driven i).resolve_right ?_
    rintro ⟨x, s, hx, -⟩
    rw [tenants_dropAll] at hx
    cases hx
  dropped channel o ho := by
    refine (h.dropAll.recorded channel o ho).resolve_right ?_
    rintro ⟨x, s, hx, -⟩
    rw [tenants_dropAll] at hx
    cases hx

end Settled

end Bench

/-! ## Trials -/

/-- What can happen on a bench: an object is made, or a command is carried out. -/
inductive Move where
  | create (spec : Bench.ObjectSpec)
  | command (command : Bench.Command)

/-- A bench, with a record of the identities that were handed out. -/
structure Trial where
  bench : Bench
  /-- The identities that were given to the tester. -/
  given : List OwnerId := []
  /-- How many identities were handed out, to streams and to the tester. -/
  issued : Nat := 0

namespace Trial

/-- A trial on a fresh bench. -/
def ofMemory (data : List UInt8) (numbers : List Nat) : Trial where
  bench := .ofMemory data numbers

/-- The bench after a move. -/
def moved (t : Trial) : Move → Bench
  | .create spec => (t.bench.create spec).2
  | .command command => (t.bench.step command).2

/-- An identity was handed out if the next one to be handed out is another. -/
def step (t : Trial) (move : Move) : Trial where
  bench := t.moved move
  given := match move with
    | .command .allocateOwner => t.bench.machine.ownership.allocate.1 :: t.given
    | _ => t.given
  issued :=
    if (t.moved move).machine.ownership.nextOwner = t.bench.machine.ownership.nextOwner then
      t.issued
    else t.issued + 1

def run (t : Trial) (moves : List Move) : Trial :=
  moves.foldl step t

/-- The tester claims channels and gives them up only with identities that were given to it. -/
def honest (t : Trial) : Move → Bool
  | .command (.bind _ k) | .command (.release _ k) => (t.bench.owners[k]?).all (· ∈ t.given)
  | _ => true

/-- The tester is honest all along. -/
def fair : Trial → List Move → Bool
  | _, [] => true
  | t, move :: moves => t.honest move && (t.step move).fair moves

/-- The streams of the bench get along, for the identities on record. -/
def InOrder (t : Trial) : Prop :=
  t.bench.Settled t.given t.issued

variable {t : Trial} {move : Move}

/-- Nobody lives on a fresh bench, and its controllers are at rest. -/
theorem inOrder_ofMemory (data : List UInt8) (numbers : List Nat) :
    (ofMemory data numbers).InOrder := by
  have hvacant (x : Seat) : (ofMemory data numbers).bench.tenants x = none := by
    cases x <;> rfl
  have hfree (channel : Nat) :
      (ofMemory data numbers).bench.machine.ownership.owner channel = none := by
    show Ownership.owner {} channel = none
    simp [Ownership.owner]
  refine ⟨?_, ?_, ?_, ?_, nofun, rfl⟩
  · intro x s hx
    rw [hvacant] at hx
    cases hx
  · intro x y s t hx
    rw [hvacant] at hx
    cases hx
  · intro channel o ho
    rw [hfree] at ho
    cases ho
  · intro i
    left
    show (((numbers.map fun number => ({ number } : Controller)).toArray).getD i {}).current = 0
    rw [Array.getD_eq_getD_getElem?, List.getElem?_toArray, List.getElem?_map]
    cases numbers[i]? <;> rfl

/-- A move that hands nothing out. -/
theorem InOrder.same (h : (t.moved move).Settled t.given t.issued) (ht : t.InOrder)
    (hgiven : (t.step move).given = t.given) : (t.step move).InOrder := by
  have hnext : (t.moved move).machine.ownership.nextOwner = t.bench.machine.ownership.nextOwner :=
    UInt32.toNat_inj.mp (h.counted.trans ht.counted.symm)
  unfold InOrder
  have hissued : (t.step move).issued = t.issued := if_pos hnext
  rw [hissued, hgiven]
  exact h

theorem issued_of_next
    (hnext : (t.moved move).machine.ownership.nextOwner =
      t.bench.machine.ownership.nextOwner + 1) : (t.step move).issued = t.issued + 1 := by
  refine if_neg ?_
  rw [hnext]
  simp

theorem InOrder.step (h : t.InOrder) (hhonest : t.honest move = true)
    (hissued : (t.step move).issued < UInt32.size) : (t.step move).InOrder := by
  cases move with
  | create spec =>
    rcases Bench.Settled.create h spec with hsame | ⟨hnext, hnew⟩
    · exact .same hsame h rfl
    · have hcount : (t.step (.create spec)).issued = t.issued + 1 := issued_of_next hnext
      rw [hcount] at hissued
      unfold InOrder
      rw [hcount]
      exact hnew hissued
  | command command =>
    by_cases halloc : command = .allocateOwner
    · subst halloc
      have hcount : (t.step (.command .allocateOwner)).issued = t.issued + 1 := issued_of_next rfl
      rw [hcount] at hissued
      unfold InOrder
      rw [hcount]
      exact Bench.Settled.allocateOwner h hissued
    · refine .same (Bench.Settled.step h halloc ?_) h ?_
      · rintro channel k o (rfl | rfl) ho
        · simpa [honest, ho] using hhonest
        · simpa [honest, ho] using hhonest
      · cases command with
        | allocateOwner => exact absurd rfl halloc
        | _ => rfl

theorem issued_le_step (t : Trial) (move : Move) : t.issued ≤ (t.step move).issued := by
  unfold step
  dsimp only
  split <;> omega

theorem issued_le_run (t : Trial) (moves : List Move) : t.issued ≤ (t.run moves).issued := by
  induction moves generalizing t with
  | nil => exact Nat.le_refl _
  | cons move moves ih => exact Nat.le_trans (t.issued_le_step move) (ih _)

/-- The streams get along all through a run. -/
theorem InOrder.run (h : t.InOrder) {moves : List Move} (hfair : t.fair moves = true)
    (hissued : (t.run moves).issued < UInt32.size) : (t.run moves).InOrder := by
  induction moves generalizing t with
  | nil => exact h
  | cons move moves ih =>
    obtain ⟨hhonest, hfair⟩ := Bool.and_eq_true_iff.mp hfair
    have hstep : (t.step move).issued < UInt32.size :=
      Nat.lt_of_le_of_lt ((t.step move).issued_le_run moves) hissued
    exact ih (h.step hhonest hstep) hfair hissued

/-- **Channel ownership is exclusive and follows the streams**, in every run in which fewer than
`UInt32.size` identities are handed out and the tester uses only those that it was given. -/
theorem ownership_exclusive (data : List UInt8) (numbers : List Nat) {moves : List Move}
    (hfair : (ofMemory data numbers).fair moves = true)
    (hissued : ((ofMemory data numbers).run moves).issued < UInt32.size) :
    ((ofMemory data numbers).run moves).bench.Exclusive
      ((ofMemory data numbers).run moves).given :=
  Bench.Settled.exclusive ((inOrder_ofMemory data numbers).run hfair hissued)

/-- A running stream in a slot, which is dropped. -/
example :
    let b := ((ofMemory [] [3]).run
      [.create (.slot 0), .create (.stream 0 2 {}),
        .command (.object 1 (.stream (.append 0 64 8))),
        .command (.object 0 (.slot (.install 1))),
        .command (.object 0 (.slot (.stream .enable)))]).bench
    let dropped := (b.step (.object 0 .drop)).2
    b.machine.ownership.owner 3 = some ⟨0⟩ ∧ (b.machine.controller 0).current ≠ 0 ∧
      dropped.machine.ownership.owner 3 = none ∧ (dropped.machine.controller 0).current = 0 := by
  decide +kernel

/-- Two streams and the tester contend for one channel. The stream that comes first holds it until
its block is through, and the tester gets it then. -/
def contention : List Move :=
  [.create (.stream 0 2 {}), .create (.stream 0 1 {}), .command .allocateOwner,
    .command (.object 0 (.stream (.append 0 64 8))), .command (.object 0 (.stream .enable)),
    .command (.object 1 (.stream (.append 0 64 8))), .command (.object 1 (.stream .enable)),
    .command (.bind 3 0), .command (.object 0 (.controller .finish)),
    .command (.object 0 (.stream (.interrupt .complete))), .command (.bind 3 0)]

theorem ownership_exclusive_contended :
    ((ofMemory [] [3]).run contention).bench.Exclusive ((ofMemory [] [3]).run contention).given ∧
      ((ofMemory [] [3]).run (contention.take 8)).bench.machine.ownership.owner 3 = some ⟨0⟩ ∧
      ((ofMemory [] [3]).run contention).bench.machine.ownership.owner 3 = some ⟨2⟩ :=
  ⟨ownership_exclusive [] [3] (by decide +kernel) (by decide +kernel), by decide +kernel,
    by decide +kernel⟩

end Trial

end ScatterGather
